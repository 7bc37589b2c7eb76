import Mathlib.Data.List.Induction
import XorcNotifications.Lib.Future

/-!
# A single-threaded executor

An executor owns a world and a list of spawned tasks.  Its inputs are handled one
after another: a reaction changes the world at once and may leave a task behind or
end in a panic, a poll drives one task, and a background effect is somebody else
touching the shared part of the world.

What became of a task is a matter of the steps alone: `run_tasks` says that the task
list of a run without panics is the one read off its steps.
-/

namespace Executors

open Futures

variable {ε W : Type}

inductive Leaves (ε W : Type) where
  | nothing
  | task (future : Future ε (W → W))
  | panic

/-- The handling of one input: its immediate effect and what it leaves behind. -/
structure Reaction (ε W : Type) where
  now : W → W
  leaves : Leaves ε W

inductive Step (ε W : Type) where
  | react (reaction : Reaction ε W)
  | background (effect : W → W)
  | poll (task : Nat) (event : Option ε)

/-- A spawned future, with the polls it has had.  Its id is the position of the step
    that spawned it. -/
structure Task (ε W : Type) where
  id : Nat
  future : Future ε (W → W)
  polls : List (Option ε)

namespace Task

def poll (task : Task ε W) (event : Option ε) : Task ε W :=
  { task with polls := task.polls ++ [event] }

def settled (task : Task ε W) : Option (W → W) := task.future.outcome task.polls

def advance (id : Nat) (event : Option ε) (task : Task ε W) : Option (Task ε W) :=
  if task.id = id then
    if (task.poll event).settled.isSome then none else some (task.poll event)
  else some task

theorem settled_poll {task : Task ε W} {effect : W → W} (settled : task.settled = some effect)
    (event : Option ε) : (task.poll event).settled = some effect :=
  Future.outcome_stable settled event

end Task

/-- The tasks that are spawned at time `clock`. -/
def Leaves.spawned (clock : Nat) : Leaves ε W → List (Task ε W)
  | .task future => [⟨clock, future, []⟩]
  | _ => []

structure Executor (ε W : Type) where
  world : W
  tasks : List (Task ε W)
  clock : Nat
  halted : Bool

namespace Executor

def start (world : W) : Executor ε W := ⟨world, [], 0, false⟩

def react (x : Executor ε W) (r : Reaction ε W) : Executor ε W :=
  match r.leaves with
  | .nothing => { x with world := r.now x.world }
  | .task future =>
    { x with world := r.now x.world, tasks := x.tasks ++ [⟨x.clock, future, []⟩] }
  | .panic => { x with world := r.now x.world, halted := true }

/-- The effect a poll of `id` has on the world, if it settles a task. -/
def effectOf (x : Executor ε W) (id : Nat) (event : Option ε) : Option (W → W) :=
  (x.tasks.find? (·.id = id)).bind fun task => (task.poll event).settled

def poll (x : Executor ε W) (id : Nat) (event : Option ε) : Executor ε W :=
  { x with
    world := (x.effectOf id event).elim x.world fun effect => effect x.world
    tasks := x.tasks.filterMap (Task.advance id event) }

/-- A halted executor still has a world that others can touch. -/
def apply (x : Executor ε W) : Step ε W → Executor ε W
  | .react r => if x.halted then x else x.react r
  | .background effect => { x with world := effect x.world }
  | .poll id event => if x.halted then x else x.poll id event

def step (x : Executor ε W) (s : Step ε W) : Executor ε W :=
  { x.apply s with clock := x.clock + 1 }

def run (x : Executor ε W) (steps : List (Step ε W)) : Executor ε W := steps.foldl step x

@[simp] theorem run_nil (x : Executor ε W) : x.run [] = x := rfl

@[simp] theorem run_cons (x : Executor ε W) (s : Step ε W) (steps : List (Step ε W)) :
    x.run (s :: steps) = (x.step s).run steps := rfl

theorem run_concat (x : Executor ε W) (steps : List (Step ε W)) (s : Step ε W) :
    x.run (steps ++ [s]) = (x.run steps).step s := by
  simp only [run, List.foldl_append, List.foldl_cons, List.foldl_nil]

/-! ### What one step does -/

theorem step_react {x : Executor ε W} (running : x.halted = false) {r : Reaction ε W}
    (quiet : r.leaves ≠ .panic) :
    x.step (.react r) =
      ⟨r.now x.world, x.tasks ++ r.leaves.spawned x.clock, x.clock + 1, false⟩ := by
  simp only [step, apply, running, Bool.false_eq_true, if_false, react]
  cases left : r.leaves with
  | nothing => simp [Leaves.spawned]
  | task future => rfl
  | panic => exact absurd left quiet

theorem step_panic {x : Executor ε W} (running : x.halted = false) {r : Reaction ε W}
    (panics : r.leaves = .panic) :
    x.step (.react r) = ⟨r.now x.world, x.tasks, x.clock + 1, true⟩ := by
  simp only [step, apply, running, Bool.false_eq_true, if_false, react, panics]

theorem step_poll {x : Executor ε W} (running : x.halted = false) (id : Nat) (event : Option ε) :
    x.step (.poll id event) =
      ⟨(x.effectOf id event).elim x.world fun effect => effect x.world,
        x.tasks.filterMap (Task.advance id event), x.clock + 1, false⟩ := by
  simp only [step, apply, running, Bool.false_eq_true, if_false, poll]

theorem halted_step {x : Executor ε W} (halted : x.halted = true) (s : Step ε W) :
    (x.step s).halted = true := by
  cases s with
  | react r => simp only [step, apply, halted, if_true]
  | background effect => exact halted
  | poll id event => simp only [step, apply, halted, if_true]

/-- A halt is for good, so who runs after a step ran before it. -/
theorem running_of_step {x : Executor ε W} {s : Step ε W} (running : (x.step s).halted = false) :
    x.halted = false := by
  rw [← Bool.not_eq_true]
  intro halted
  rw [halted_step halted s] at running
  cases running

end Executor

/-! ## The history of a task

What became of the task spawned at position `i` can be read off the steps alone. -/

/-- The poll of task `i` that a step is, if it is one. -/
def Step.pollOf (i : Nat) : Step ε W → Option (Option ε)
  | .poll task event => if task = i then some event else none
  | _ => none

/-- The polls of task `i`, all of them after the step that spawned it. -/
def pollsOf (steps : List (Step ε W)) (i : Nat) : List (Option ε) :=
  (steps.drop (i + 1)).filterMap (Step.pollOf i)

/-- The task that the step at position `i` leaves behind, with its polls so far. -/
def taskAt (steps : List (Step ε W)) (i : Nat) : Option (Task ε W) :=
  match steps[i]? with
  | some (.react ⟨_, .task future⟩) => some ⟨i, future, pollsOf steps i⟩
  | _ => none

def pendingAt (steps : List (Step ε W)) (i : Nat) : Option (Task ε W) :=
  (taskAt steps i).filter (·.settled.isNone)

def settledAt (steps : List (Step ε W)) (i : Nat) : Bool :=
  (taskAt steps i).any (·.settled.isSome)

/-- No reaction of the run ends in a panic. -/
def Calm (steps : List (Step ε W)) : Prop :=
  ∀ r, Step.react r ∈ steps → r.leaves ≠ .panic

theorem taskAt_id {steps : List (Step ε W)} {i : Nat} {task : Task ε W}
    (present : taskAt steps i = some task) : task.id = i := by
  simp only [taskAt] at present
  split at present
  · cases present; rfl
  · cases present

theorem pendingAt_id {steps : List (Step ε W)} {i : Nat} {task : Task ε W}
    (pending : pendingAt steps i = some task) : task.id = i := by
  simp only [pendingAt, Option.filter_eq_some_iff] at pending
  exact taskAt_id pending.1

theorem Calm.of_concat {steps : List (Step ε W)} {s : Step ε W} (calm : Calm (steps ++ [s])) :
    Calm steps :=
  fun r member => calm r (List.mem_append_left _ member)

theorem pollsOf_concat {steps : List (Step ε W)} {i : Nat} (bound : i < steps.length)
    (s : Step ε W) : pollsOf (steps ++ [s]) i = pollsOf steps i ++ (s.pollOf i).toList := by
  rw [pollsOf, List.drop_append_of_le_length bound, List.filterMap_append, pollsOf]
  cases polled : s.pollOf i <;> simp [polled]

theorem taskAt_concat_of_not_polled {steps : List (Step ε W)} {i : Nat} (bound : i < steps.length)
    {s : Step ε W} (other : s.pollOf i = none) : taskAt (steps ++ [s]) i = taskAt steps i := by
  simp only [taskAt, List.getElem?_append_left bound, pollsOf_concat bound, other,
    Option.toList_none, List.append_nil]

theorem taskAt_concat_of_polled {steps : List (Step ε W)} {i : Nat} (bound : i < steps.length)
    {s : Step ε W} (event : Option ε) (polled : s.pollOf i = some event) :
    taskAt (steps ++ [s]) i = (taskAt steps i).map (·.poll event) := by
  simp only [taskAt, List.getElem?_append_left bound, pollsOf_concat bound, polled,
    Option.toList_some]
  split <;> rfl

/-- The last step is too recent to have been polled. -/
theorem taskAt_concat_last (steps : List (Step ε W)) (s : Step ε W) :
    taskAt (steps ++ [s]) steps.length =
      match s with
      | .react ⟨_, .task future⟩ => some ⟨steps.length, future, []⟩
      | _ => none := by
  have noPolls : pollsOf (steps ++ [s]) steps.length = [] := by
    rw [pollsOf, List.drop_of_length_le (by simp), List.filterMap_nil]
  simp only [taskAt, List.getElem?_concat_length, noPolls]
  rcases s with ⟨_, _ | _ | _⟩ | _ | _ <;> rfl

theorem pendingAt_concat_of_not_polled {steps : List (Step ε W)} {i : Nat} (bound : i < steps.length)
    {s : Step ε W} (other : s.pollOf i = none) : pendingAt (steps ++ [s]) i = pendingAt steps i := by
  rw [pendingAt, taskAt_concat_of_not_polled bound other, pendingAt]

theorem pendingAt_concat_poll {steps : List (Step ε W)} {i : Nat} (bound : i < steps.length)
    (id : Nat) (event : Option ε) :
    pendingAt (steps ++ [.poll id event]) i = (pendingAt steps i).bind (Task.advance id event) := by
  by_cases same : id = i
  · subst same
    rw [pendingAt, taskAt_concat_of_polled bound event (by simp [Step.pollOf]), pendingAt]
    cases present : taskAt steps id with
    | none => rfl
    | some task =>
      -- A task that has settled is gone already, and the poll does not bring it back.
      cases settled : task.settled with
      | some effect =>
        simp [Option.filter, settled, Task.settled_poll settled event]
      | none =>
        cases polled : (task.poll event).settled <;>
          simp [Option.filter, settled, Task.advance, taskAt_id present, polled]
  · rw [pendingAt_concat_of_not_polled bound (by simp [Step.pollOf, same])]
    cases pending : pendingAt steps i with
    | none => rfl
    | some task =>
      have other : ¬ task.id = id := by rw [pendingAt_id pending]; exact Ne.symm same
      simp [Task.advance, other]

/-! ## The task list of a run -/

/-- The tasks still pending after the steps, in the order they were spawned. -/
def pendingTasks (steps : List (Step ε W)) : List (Task ε W) :=
  (List.range steps.length).filterMap (pendingAt steps)

theorem filterMap_range_congr {α : Type} {f g : Nat → Option α} {n : Nat}
    (agree : ∀ i < n, f i = g i) : (List.range n).filterMap f = (List.range n).filterMap g :=
  List.filterMap_congr fun i member => agree i (List.mem_range.mp member)

theorem pendingTasks_concat (steps : List (Step ε W)) (s : Step ε W) :
    pendingTasks (steps ++ [s]) =
      (List.range steps.length).filterMap (pendingAt (steps ++ [s])) ++
        (pendingAt (steps ++ [s]) steps.length).toList := by
  rw [pendingTasks, List.length_append, List.length_singleton, List.range_succ, List.filterMap_append]
  cases last : pendingAt (steps ++ [s]) steps.length <;> simp [last]

theorem pendingTasks_concat_react (steps : List (Step ε W)) (r : Reaction ε W) :
    pendingTasks (steps ++ [.react r]) =
      pendingTasks steps ++ r.leaves.spawned steps.length := by
  rw [pendingTasks_concat, pendingTasks, filterMap_range_congr fun i bound =>
    pendingAt_concat_of_not_polled bound (s := .react r) rfl, pendingAt, taskAt_concat_last]
  rcases r with ⟨_, _ | _ | _⟩ <;> rfl

theorem pendingTasks_concat_background (steps : List (Step ε W)) (effect : W → W) :
    pendingTasks (steps ++ [.background effect]) = pendingTasks steps := by
  rw [pendingTasks_concat, pendingTasks, filterMap_range_congr fun i bound =>
    pendingAt_concat_of_not_polled bound (s := .background effect) rfl, pendingAt, taskAt_concat_last]
  exact List.append_nil _

theorem pendingTasks_concat_poll (steps : List (Step ε W)) (id : Nat) (event : Option ε) :
    pendingTasks (steps ++ [.poll id event]) = (pendingTasks steps).filterMap (Task.advance id event) := by
  rw [pendingTasks_concat, pendingTasks, filterMap_range_congr fun i bound =>
    pendingAt_concat_poll bound id event, List.filterMap_filterMap, pendingAt, taskAt_concat_last]
  exact List.append_nil _

/-- In a calm run the executor never halts, and its task list is what the steps say. -/
theorem run_tasks {steps : List (Step ε W)} (calm : Calm steps) (world : W) :
    let x := (Executor.start world).run steps
    x.tasks = pendingTasks steps ∧ x.clock = steps.length ∧ x.halted = false := by
  induction steps using List.reverseRecOn with
  | nil => exact ⟨rfl, rfl, rfl⟩
  | append_singleton steps s inductionHypothesis =>
    -- The three facts go together: ids come from the clock, and a halted executor is stuck.
    obtain ⟨tasks, clock, running⟩ := inductionHypothesis calm.of_concat
    rw [Executor.run_concat]
    cases s with
    | react r =>
      have quiet := calm r (List.mem_append_right _ (List.mem_singleton.mpr rfl))
      rw [Executor.step_react running quiet, pendingTasks_concat_react, tasks, clock]
      exact ⟨rfl, by simp, rfl⟩
    | background effect =>
      rw [pendingTasks_concat_background]
      exact ⟨tasks, by simp [Executor.step, Executor.apply, clock], running⟩
    | poll id event =>
      rw [Executor.step_poll running, pendingTasks_concat_poll, tasks, clock]
      exact ⟨rfl, by simp, rfl⟩

/-- The executor runs exactly as long as no reaction ends in a panic. -/
theorem halted_eq_false_iff (steps : List (Step ε W)) (world : W) :
    ((Executor.start world).run steps).halted = false ↔ Calm steps := by
  refine ⟨fun running => ?_, fun calm => (run_tasks calm world).2.2⟩
  induction steps using List.reverseRecOn with
  | nil =>
    intro r member
    cases member
  | append_singleton steps s inductionHypothesis =>
    rw [Executor.run_concat] at running
    have before := Executor.running_of_step running
    intro r member
    rcases List.mem_append.mp member with earlier | last
    · exact inductionHypothesis before r earlier
    · intro panics
      rw [← List.mem_singleton.mp last, Executor.step_panic before panics] at running
      cases running

theorem taskAt_of_mem_pendingTasks {steps : List (Step ε W)} {task : Task ε W}
    (member : task ∈ pendingTasks steps) : task.id < steps.length ∧ taskAt steps task.id = some task := by
  obtain ⟨i, inside, pending⟩ := List.mem_filterMap.mp member
  rw [pendingAt_id pending]
  rw [pendingAt, Option.filter_eq_some_iff] at pending
  exact ⟨List.mem_range.mp inside, pending.1⟩

/-- A task comes from the reaction at its id. -/
theorem exists_react_of_taskAt {steps : List (Step ε W)} {i : Nat} {task : Task ε W}
    (present : taskAt steps i = some task) :
    ∃ r, steps[i]? = some (.react r) ∧ r.leaves = .task task.future := by
  rw [taskAt] at present
  split at present
  next reaction future position =>
    cases present
    exact ⟨_, position, rfl⟩
  next => cases present

theorem exists_mem_pendingTasks_iff (steps : List (Step ε W)) (id : Nat) :
    (∃ task ∈ pendingTasks steps, task.id = id) ↔ (pendingAt steps id).isSome := by
  constructor
  · intro listed
    obtain ⟨task, member, isId⟩ := listed
    obtain ⟨i, -, pending⟩ := List.mem_filterMap.mp member
    rw [← isId, pendingAt_id pending, pending]
    rfl
  · intro present
    obtain ⟨task, pending⟩ := Option.isSome_iff_exists.mp present
    have bound : id < steps.length := by
      rw [← Nat.not_le]
      intro beyond
      simp [pendingAt, taskAt, List.getElem?_eq_none beyond] at pending
    exact ⟨task, List.mem_filterMap.mpr ⟨id, List.mem_range.mpr bound, pending⟩, pendingAt_id pending⟩

/-- The task a poll finds is the pending one with that id. -/
theorem find_pendingTasks (steps : List (Step ε W)) (id : Nat) :
    (pendingTasks steps).find? (·.id = id) =
      if id < steps.length then pendingAt steps id else none := by
  have search : ∀ n, ((List.range n).filterMap (pendingAt steps)).find? (·.id = id) =
      if id < n then pendingAt steps id else none := by
    intro n
    induction n with
    | zero => rfl
    | succ n inductionHypothesis =>
      rw [List.range_succ, List.filterMap_append, List.find?_append, inductionHypothesis]
      -- Only the task of the index itself has this id.
      rcases Nat.lt_trichotomy id n with earlier | rfl | later
      · rw [if_pos earlier, if_pos (by omega)]
        cases pending : pendingAt steps n with
        | none => simp [pending]
        | some task =>
          have other : ¬ task.id = id := by rw [pendingAt_id pending]; omega
          simp [pending, other]
      · rw [if_neg (Nat.lt_irrefl _), if_pos (Nat.lt_succ_self _)]
        cases pending : pendingAt steps id with
        | none => simp [pending]
        | some task => simp [pending, pendingAt_id pending]
      · rw [if_neg (by omega), if_neg (by omega)]
        cases pending : pendingAt steps n with
        | none => simp [pending]
        | some task =>
          have other : ¬ task.id = id := by rw [pendingAt_id pending]; omega
          simp [pending, other]
  exact search steps.length

end Executors
