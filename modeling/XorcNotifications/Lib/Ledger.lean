import Mathlib.Algebra.BigOperators.Intervals
import XorcNotifications.Lib.Executor

/-!
# Accounting for an executor

`ledger` is the accounting rule for any quantity that effects only ever add to.  If
every reaction adds a known amount at once and every task a known amount when it
settles, whatever it settles with, then after any run the quantity is the sum of
the charges of the steps, and the order of the polls does not matter.

Two uses of the rule have names of their own: a quantity that every reaction adds to
exactly once, and a counter of the tasks that are still pending.
-/

namespace Executors

open Futures

variable {ε W : Type}

/-! ## The ledger -/

section Ledger

variable {M : Type} [AddCommMonoid M]

/-- `r` adds `now` to the quantity `μ` at once, and its task adds `later` when it settles,
    whatever it settles with. -/
structure Weighs (μ : W → M) (r : Reaction ε W) (now later : M) : Prop where
  now : ∀ w, μ (r.now w) = μ w + now
  later : ∀ future, r.leaves = .task future → ∀ history effect n,
    future.resolve history = some (effect, n) → ∀ w, μ (effect w) = μ w + later

/-- What the step at position `i` has added so far. -/
def charge (now later : Nat → M) (steps : List (Step ε W)) (i : Nat) : M :=
  match steps[i]? with
  | some (.react _) => now i + if settledAt steps i then later i else 0
  | _ => 0

/-- Whether a further poll of `id` would settle a task that is still pending. -/
def settles (steps : List (Step ε W)) (id : Nat) (event : Option ε) : Bool :=
  (pendingAt steps id).any fun task => (task.poll event).settled.isSome

theorem settledAt_concat_poll {steps : List (Step ε W)} {i : Nat} (bound : i < steps.length)
    (id : Nat) (event : Option ε) :
    settledAt (steps ++ [.poll id event]) i =
      (settledAt steps i || (decide (i = id) && settles steps id event)) := by
  by_cases same : i = id
  · subst same
    rw [settledAt, taskAt_concat_of_polled bound event (by simp [Step.pollOf]), settledAt,
      settles, pendingAt]
    cases present : taskAt steps i with
    | none => simp
    | some task =>
      cases settled : task.settled with
      | some effect => simp [settled, Task.settled_poll settled event]
      | none => simp [Option.filter, settled]
  · have other : Step.pollOf (W := W) i (.poll id event) = none := by
      simp [Step.pollOf, Ne.symm same]
    simp [settledAt, taskAt_concat_of_not_polled bound other, same]

theorem exists_react_of_pendingAt {steps : List (Step ε W)} {i : Nat} {task : Task ε W}
    (pending : pendingAt steps i = some task) :
    ∃ r, steps[i]? = some (.react r) ∧ r.leaves = .task task.future := by
  simp only [pendingAt, Option.filter_eq_some_iff, taskAt] at pending
  obtain ⟨present, _⟩ := pending
  split at present
  next position =>
    cases present
    exact ⟨_, position, rfl⟩
  next => cases present

theorem not_settledAt_of_settles {steps : List (Step ε W)} {id : Nat} {event : Option ε}
    (newly : settles steps id event = true) : settledAt steps id = false := by
  simp only [settles, Option.any_eq_true, pendingAt, Option.filter_eq_some_iff] at newly
  obtain ⟨task, ⟨present, pending⟩, _⟩ := newly
  simp only [Option.isNone_iff_eq_none] at pending
  simp [settledAt, present, pending]

theorem charge_concat_of_not_polled {now later : Nat → M} {steps : List (Step ε W)} {i : Nat}
    (bound : i < steps.length) {s : Step ε W} (other : s.pollOf i = none) :
    charge now later (steps ++ [s]) i = charge now later steps i := by
  rw [charge, charge, List.getElem?_append_left bound, settledAt, settledAt,
    taskAt_concat_of_not_polled bound other]

theorem charge_concat_poll (now later : Nat → M) {steps : List (Step ε W)} {i : Nat}
    (bound : i < steps.length) (id : Nat) (event : Option ε) :
    charge now later (steps ++ [.poll id event]) i =
      charge now later steps i +
        if i = id then (if settles steps id event then later id else 0) else 0 := by
  by_cases same : i = id
  · subst same
    rw [if_pos rfl, charge, charge, List.getElem?_append_left bound, settledAt_concat_poll bound]
    cases newly : settles steps i event with
    | false => simp
    | true =>
      have unsettled := not_settledAt_of_settles newly
      obtain ⟨task, pending, _⟩ := (Option.any_eq_true ..).mp newly
      obtain ⟨r, reacted, _⟩ := exists_react_of_pendingAt pending
      simp [reacted, unsettled]
  · rw [charge_concat_of_not_polled bound (by simp [Step.pollOf, Ne.symm same]), if_neg same, add_zero]

/-! ### One step of the account -/

theorem sum_charge_concat_of_not_polled {now later : Nat → M} {steps : List (Step ε W)} {s : Step ε W}
    (other : ∀ i, s.pollOf i = none) :
    ∑ i ∈ Finset.range (steps ++ [s]).length, charge now later (steps ++ [s]) i =
      (∑ i ∈ Finset.range steps.length, charge now later steps i) +
        charge now later (steps ++ [s]) steps.length := by
  rw [List.length_append, List.length_singleton, Finset.sum_range_succ]
  congr 1
  exact Finset.sum_congr rfl fun i member =>
    charge_concat_of_not_polled (Finset.mem_range.mp member) (other i)

theorem charge_concat_react (now later : Nat → M) (steps : List (Step ε W)) (r : Reaction ε W) :
    charge now later (steps ++ [.react r]) steps.length = now steps.length := by
  have unsettled : settledAt (steps ++ [.react r]) steps.length = false := by
    rw [settledAt, taskAt_concat_last]
    rcases r with ⟨_, _ | _ | _⟩ <;> rfl
  simp [charge, unsettled]

/-- A poll adds what the task it settles is charged with. -/
theorem sum_charge_concat_poll (now later : Nat → M) (steps : List (Step ε W)) (id : Nat)
    (event : Option ε) :
    ∑ i ∈ Finset.range (steps ++ [Step.poll id event]).length,
        charge now later (steps ++ [.poll id event]) i =
      (∑ i ∈ Finset.range steps.length, charge now later steps i) +
        if id < steps.length then (if settles steps id event then later id else 0) else 0 := by
  have last : charge now later (steps ++ [.poll id event]) steps.length = 0 := by
    simp [charge]
  rw [List.length_append, List.length_singleton, Finset.sum_range_succ, last, add_zero,
    Finset.sum_congr rfl fun i member =>
      charge_concat_poll now later (Finset.mem_range.mp member) id event,
    Finset.sum_add_distrib, Finset.sum_ite_eq']
  simp only [Finset.mem_range]

/-- A poll adds to the quantity what the reaction of the task it settles weighs. -/
theorem weight_poll {μ : W → M} {now later : Nat → M} {steps : List (Step ε W)} (calm : Calm steps)
    (weighs : ∀ i r, steps[i]? = some (.react r) → Weighs μ r (now i) (later i)) (world : W)
    (id : Nat) (event : Option ε) :
    μ (((Executor.start world).run steps).step (.poll id event)).world =
      μ ((Executor.start world).run steps).world +
        if id < steps.length then (if settles steps id event then later id else 0) else 0 := by
  obtain ⟨tasks, -, running⟩ := run_tasks calm world
  rw [Executor.step_poll running]
  simp only [Executor.effectOf, tasks, find_pendingTasks]
  by_cases bound : id < steps.length
  · rw [if_pos bound, if_pos bound, settles]
    cases pending : pendingAt steps id with
    | none => simp
    | some task =>
      cases settled : (task.poll event).settled with
      | none => simp [settled]
      | some effect =>
        -- The effect is one that the future of the reaction at `id` resolves with.
        obtain ⟨r, reacted, left⟩ := exists_react_of_pendingAt pending
        obtain ⟨history, n, resolved⟩ := Future.exists_resolve_of_outcome settled
        simp [settled, (weighs id r reacted).later _ left _ _ _ resolved]
  · simp [bound]

/-- The accounting rule: after a calm run the quantity is the sum of the charges. -/
theorem ledger {μ : W → M} {now later : Nat → M} {steps : List (Step ε W)} (calm : Calm steps)
    (weighs : ∀ i r, steps[i]? = some (.react r) → Weighs μ r (now i) (later i))
    (quiet : ∀ effect, Step.background effect ∈ steps → ∀ w, μ (effect w) = μ w) (world : W) :
    μ ((Executor.start world).run steps).world =
      μ world + ∑ i ∈ Finset.range steps.length, charge now later steps i := by
  induction steps using List.reverseRecOn with
  | nil => simp [Executor.start]
  | append_singleton steps s inductionHypothesis =>
    have earlier : ∀ i r, steps[i]? = some (.react r) → Weighs μ r (now i) (later i) := by
      intro i r position
      refine weighs i r ?_
      rw [List.getElem?_append_left (List.getElem?_eq_some_iff.mp position).1, position]
    have before := inductionHypothesis calm.of_concat earlier
      fun effect member => quiet effect (List.mem_append_left _ member)
    have here : s ∈ steps ++ [s] := List.mem_append_right _ (List.mem_singleton.mpr rfl)
    rw [Executor.run_concat]
    cases s with
    | react r =>
      have running := (run_tasks calm.of_concat world).2.2
      have weight := weighs steps.length r List.getElem?_concat_length
      rw [Executor.step_react running (calm r here), weight.now, before,
        sum_charge_concat_of_not_polled (s := .react r) (fun _ => rfl), charge_concat_react, add_assoc]
    | background effect =>
      have last : charge now later (steps ++ [.background effect]) steps.length = 0 := by
        simp [charge]
      rw [sum_charge_concat_of_not_polled (s := .background effect) (fun _ => rfl), last, add_zero,
        ← before]
      exact quiet effect here _
    | poll id event =>
      rw [weight_poll calm.of_concat earlier, before, sum_charge_concat_poll, add_assoc]

/-! ## Once for every reaction -/

/-- The reaction adds `amount` once: at once if it leaves nothing, else when its task settles. -/
def AddsOnce (μ : W → M) (r : Reaction ε W) (amount : M) : Prop :=
  Weighs μ r (match r.leaves with | .nothing => amount | _ => 0) amount

theorem addsOnce_nothing {μ : W → M} {now : W → W} {amount : M}
    (atOnce : ∀ w, μ (now w) = μ w + amount) :
    AddsOnce μ (⟨now, .nothing⟩ : Reaction ε W) amount :=
  ⟨atOnce, by intro future left; cases left⟩

theorem addsOnce_panic {μ : W → M} {now : W → W} {amount : M} (quiet : ∀ w, μ (now w) = μ w) :
    AddsOnce μ (⟨now, .panic⟩ : Reaction ε W) amount :=
  ⟨fun w => (quiet w).trans (add_zero _).symm, by intro future left; cases left⟩

theorem addsOnce_task {α : Type} {μ : W → M} {now : W → W} {future : Future ε α} {done : α → W → W}
    {amount : M} (quiet : ∀ w, μ (now w) = μ w) (settled : ∀ a w, μ (done a w) = μ w + amount) :
    AddsOnce μ ⟨now, .task (future.map done)⟩ amount := by
  refine ⟨fun w => (quiet w).trans (add_zero _).symm, ?_⟩
  intro _ left history effect n resolved w
  cases left
  obtain ⟨a, -, rfl⟩ := Future.exists_of_resolve_map resolved
  exact settled a w

/-- Whether the reaction at position `i` is over: it left nothing, or its task has settled. -/
def doneAt (steps : List (Step ε W)) (i : Nat) : Bool :=
  match steps[i]? with
  | some (.react ⟨_, .nothing⟩) => true
  | some (.react ⟨_, .task future⟩) => (future.outcome (pollsOf steps i)).isSome
  | _ => false

/-- The future a reaction waits for, without what it will do then. -/
def Leaves.signal : Leaves ε W → Option (Future ε Unit)
  | .task future => some (future.map fun _ => ())
  | _ => none

theorem Leaves.signal_task {α : Type} (future : Future ε α) (done : α → W → W) :
    (Leaves.task (future.map done)).signal = some (future.map fun _ => ()) :=
  congrArg some (Future.map_map _ _ _)

/-- Whether there is nothing to wait for, or no longer. -/
def completed (signal : Option (Future ε Unit)) (polls : List (Option ε)) : Bool :=
  signal.all fun future => (future.outcome polls).isSome

theorem completed_iff {signal : Option (Future ε Unit)} {polls : List (Option ε)} :
    completed signal polls = true ↔
      ∀ future, signal = some future → (future.outcome polls).isSome = true := by
  cases signal with
  | none => exact iff_of_true rfl (fun future impossible => nomatch impossible)
  | some waiting => simp [completed]

theorem completed_append {signal : Option (Future ε Unit)} {polls : List (Option ε)}
    (isOver : completed signal polls = true) (more : List (Option ε)) :
    completed signal (polls ++ more) = true := by
  rw [completed_iff] at isOver ⊢
  intro future waits
  obtain ⟨outcome, settled⟩ := Option.isSome_iff_exists.mp (isOver future waits)
  induction more using List.reverseRecOn with
  | nil => rw [List.append_nil, settled, Option.isSome_some]
  | append_singleton more poll inductionHypothesis =>
    obtain ⟨outcome, settled⟩ := Option.isSome_iff_exists.mp inductionHypothesis
    rw [← List.append_assoc, Future.outcome_stable settled poll, Option.isSome_some]

theorem doneAt_eq_completed {steps : List (Step ε W)} {i : Nat} {r : Reaction ε W}
    (position : steps[i]? = some (.react r)) (quiet : r.leaves ≠ .panic) :
    doneAt steps i = completed r.leaves.signal (pollsOf steps i) := by
  obtain ⟨effect, leaves⟩ := r
  cases leaves with
  | nothing => simp [doneAt, position, completed, Leaves.signal]
  | task future => simp [doneAt, position, completed, Leaves.signal, Future.outcome_map]
  | panic => exact absurd rfl quiet

/-- A task is pending exactly while the reaction that left it has something to wait for. -/
theorem pendingAt_isSome_iff (steps : List (Step ε W)) (i : Nat) :
    (pendingAt steps i).isSome = true ↔
      ∃ r, steps[i]? = some (.react r) ∧ completed r.leaves.signal (pollsOf steps i) = false := by
  cases position : steps[i]? with
  | none => simp [pendingAt, taskAt, position]
  | some s =>
    rcases s with ⟨effect, leaves⟩ | _ | _
    · cases leaves with
      | nothing => simp [pendingAt, taskAt, position, completed, Leaves.signal]
      | task future =>
        simp [pendingAt, taskAt, position, completed, Leaves.signal, Future.outcome_map,
          Task.settled]
      | panic => simp [pendingAt, taskAt, position, completed, Leaves.signal]
    · simp [pendingAt, taskAt, position]
    · simp [pendingAt, taskAt, position]

def atOnce (amount : Nat → M) (steps : List (Step ε W)) (i : Nat) : M :=
  match steps[i]? with
  | some (.react ⟨_, .nothing⟩) => amount i
  | _ => 0

theorem weighs_of_addsOnce {μ : W → M} {amount : Nat → M} {steps : List (Step ε W)} {i : Nat}
    {r : Reaction ε W} (position : steps[i]? = some (.react r)) (added : AddsOnce μ r (amount i)) :
    Weighs μ r (atOnce amount steps i) (amount i) := by
  obtain ⟨effect, leaves⟩ := r
  cases leaves <;> simpa only [AddsOnce, atOnce, position] using added

/-- When every reaction adds its amount once, the quantity is the sum of the amounts of
    those that are over. -/
theorem ledger_once {μ : W → M} {amount : Nat → M} {steps : List (Step ε W)} (calm : Calm steps)
    (adds : ∀ i r, steps[i]? = some (.react r) → AddsOnce μ r (amount i))
    (quiet : ∀ effect, Step.background effect ∈ steps → ∀ w, μ (effect w) = μ w) (world : W) :
    μ ((Executor.start world).run steps).world =
      μ world + ∑ i ∈ Finset.range steps.length, if doneAt steps i then amount i else 0 := by
  have weighs : ∀ i r, steps[i]? = some (.react r) →
      Weighs μ r (atOnce amount steps i) (amount i) :=
    fun i r position => weighs_of_addsOnce position (adds i r position)
  rw [ledger calm weighs quiet world]
  congr 1
  -- Index by index: on the spot without a task, else when its task has settled.
  refine Finset.sum_congr rfl fun i _ => ?_
  cases position : steps[i]? with
  | none => simp [charge, doneAt, position]
  | some s =>
    cases s with
    | react r =>
      have quietEnd := calm r (List.mem_of_getElem? position)
      obtain ⟨effect, leaves⟩ := r
      cases leaves with
      | nothing => simp [charge, doneAt, settledAt, taskAt, atOnce, position]
      | task future =>
        simp [charge, doneAt, settledAt, taskAt, Task.settled, atOnce, position]
      | panic => exact absurd rfl quietEnd
    | background effect => simp [charge, doneAt, position]
    | poll id event => simp [charge, doneAt, position]

theorem sum_singletons {α : Type} (f : Nat → Option α) (n : Nat) :
    ∑ i ∈ Finset.range n, (f i).elim 0 (fun a => ({a} : Multiset α)) =
      (Multiset.range n).filterMap f := by
  induction n with
  | zero => rfl
  | succ n inductionHypothesis =>
    rw [Finset.sum_range_succ, inductionHypothesis, Multiset.range_succ]
    cases value : f n with
    | none => rw [Multiset.filterMap_cons_none _ _ value, Option.elim_none, add_zero]
    | some a =>
      rw [Multiset.filterMap_cons_some _ _ _ value, Option.elim_some, add_comm, Multiset.singleton_add]

end Ledger

/-! ## Counting the pending tasks -/

/-- The reaction counts its task: up by one when it leaves it, down by one when it settles. -/
def CountsTask (μ : W → ℤ) (r : Reaction ε W) : Prop :=
  Weighs μ r (match r.leaves with | .task _ => 1 | _ => 0) (-1)

theorem countsTask_nothing {μ : W → ℤ} {now : W → W} (quiet : ∀ w, μ (now w) = μ w) :
    CountsTask μ (⟨now, .nothing⟩ : Reaction ε W) :=
  ⟨fun w => (quiet w).trans (add_zero _).symm, by intro future left; cases left⟩

theorem countsTask_task {α : Type} {μ : W → ℤ} {now : W → W} {future : Future ε α} {done : α → W → W}
    (up : ∀ w, μ (now w) = μ w + 1) (down : ∀ a w, μ (done a w) = μ w + -1) :
    CountsTask μ ⟨now, .task (future.map done)⟩ := by
  refine ⟨up, ?_⟩
  intro _ left history effect n resolved w
  cases left
  obtain ⟨a, -, rfl⟩ := Future.exists_of_resolve_map resolved
  exact down a w

theorem length_filterMap_range {α : Type} (f : Nat → Option α) (n : Nat) :
    (((List.range n).filterMap f).length : ℤ) =
      ∑ i ∈ Finset.range n, if (f i).isSome then 1 else 0 := by
  induction n with
  | zero => rfl
  | succ n inductionHypothesis =>
    rw [List.range_succ, List.filterMap_append, List.length_append, Int.natCast_add,
      inductionHypothesis, Finset.sum_range_succ]
    cases value : f n <;> simp [value]

def taskAdded (steps : List (Step ε W)) (i : Nat) : ℤ :=
  match steps[i]? with
  | some (.react ⟨_, .task _⟩) => 1
  | _ => 0

theorem weighs_of_countsTask {μ : W → ℤ} {steps : List (Step ε W)} {i : Nat} {r : Reaction ε W}
    (position : steps[i]? = some (.react r)) (counted : CountsTask μ r) :
    Weighs μ r (taskAdded steps i) (-1) := by
  obtain ⟨effect, leaves⟩ := r
  cases leaves <;> simpa only [CountsTask, taskAdded, position] using counted

/-- When every reaction counts its task, the counter has the number of pending tasks. -/
theorem ledger_pending {μ : W → ℤ} {steps : List (Step ε W)} (calm : Calm steps)
    (counts : ∀ r, Step.react r ∈ steps → CountsTask μ r)
    (quiet : ∀ effect, Step.background effect ∈ steps → ∀ w, μ (effect w) = μ w) (world : W) :
    μ ((Executor.start world).run steps).world =
      μ world + ((Executor.start world).run steps).tasks.length := by
  have weighs : ∀ i r, steps[i]? = some (.react r) → Weighs μ r (taskAdded steps i) (-1) :=
    fun i r position => weighs_of_countsTask position (counts r (List.mem_of_getElem? position))
  rw [ledger calm weighs quiet world, (run_tasks calm world).1, pendingTasks,
    length_filterMap_range]
  congr 1
  refine Finset.sum_congr rfl fun i _ => ?_
  -- A reaction with a task is charged for it until the task settles.
  cases position : steps[i]? with
  | none => simp [charge, pendingAt, taskAt, position]
  | some s =>
    rcases s with ⟨effect, leaves⟩ | _ | _
    · cases leaves with
      | nothing => simp [charge, settledAt, pendingAt, taskAt, taskAdded, position]
      | task future =>
        cases settled : Task.settled ⟨i, future, pollsOf steps i⟩ <;>
          simp [charge, settledAt, pendingAt, taskAt, taskAdded, position, settled, Option.filter]
      | panic => simp [charge, settledAt, pendingAt, taskAt, taskAdded, position]
    · simp [charge, pendingAt, taskAt, position]
    · simp [charge, pendingAt, taskAt, position]

/-! ## Prices

What a task adds may depend on what it has been told.  Then each step adds the price of the
events of the task it settles, in any state, whether or not the executor is halted. -/

section Prices

variable {M : Type} [AddCommMonoid M]

/-- Whatever the future resolves with adds the price of what it has been told. -/
def Prices (μ : W → M) (price : List ε → M) (future : Future ε (W → W)) : Prop :=
  ∀ history effect n, future.resolve history = some (effect, n) →
    ∀ w, μ (effect w) = μ w + price history

structure Priced (μ : W → M) (price : List ε → M) (r : Reaction ε W) : Prop where
  now : ∀ w, μ (r.now w) = μ w
  later : ∀ future, r.leaves = .task future → Prices μ price future

theorem priced_nothing {μ : W → M} {price : List ε → M} {now : W → W} (kept : ∀ w, μ (now w) = μ w) :
    Priced μ price (⟨now, .nothing⟩ : Reaction ε W) :=
  ⟨kept, by intro future left; cases left⟩

theorem priced_panic {μ : W → M} {price : List ε → M} {now : W → W} (kept : ∀ w, μ (now w) = μ w) :
    Priced μ price (⟨now, .panic⟩ : Reaction ε W) :=
  ⟨kept, by intro future left; cases left⟩

theorem priced_task {α : Type} {μ : W → M} {price : List ε → M} {now : W → W} {future : Future ε α}
    {done : α → W → W} (kept : ∀ w, μ (now w) = μ w)
    (settled : ∀ history a n, future.resolve history = some (a, n) →
      ∀ w, μ (done a w) = μ w + price history) :
    Priced μ price ⟨now, .task (future.map done)⟩ := by
  refine ⟨kept, ?_⟩
  intro _ left history effect n resolved w
  cases left
  obtain ⟨a, inner, rfl⟩ := Future.exists_of_resolve_map resolved
  exact settled history a n inner w

/-- What the task that a step settles has been told. -/
def Executor.settledBy (x : Executor ε W) : Step ε W → Option (List ε)
  | .poll id event =>
    if x.halted then none
    else ((x.tasks.find? (·.id = id)).map (·.poll event)).bind fun task =>
      task.settled.map fun _ => task.polls.reduceOption
  | _ => none

theorem Task.told_of_settled {task : Task ε W} {effect : W → W} (settled : task.settled = some effect) :
    ∃ n, task.future.resolve task.polls.reduceOption = some (effect, n) := by
  rw [Task.settled] at settled
  cases polls : task.polls with
  | nil =>
    rw [polls] at settled
    cases settled
  | cons poll polls =>
    rw [polls] at settled
    simpa [Future.outcome] using settled

/-- A task that is left after a step was there before, or is left by its reaction. -/
theorem Executor.future_of_mem_step {x : Executor ε W} {s : Step ε W} {task : Task ε W}
    (member : task ∈ (x.step s).tasks) :
    (∃ old ∈ x.tasks, task.future = old.future) ∨ ∃ r, s = .react r ∧ r.leaves = .task task.future := by
  by_cases halted : x.halted = true
  · have same : (x.step s).tasks = x.tasks := by
      cases s <;> simp [Executor.step, Executor.apply, halted]
    exact .inl ⟨task, same ▸ member, rfl⟩
  · cases s with
    | react r =>
      simp only [Executor.step, Executor.apply, halted, Bool.false_eq_true, if_false,
        Executor.react] at member
      cases left : r.leaves with
      | nothing => exact .inl ⟨task, by simpa only [left] using member, rfl⟩
      | panic => exact .inl ⟨task, by simpa only [left] using member, rfl⟩
      | task future =>
        rw [left, List.mem_append, List.mem_singleton] at member
        rcases member with there | rfl
        · exact .inl ⟨task, there, rfl⟩
        · exact .inr ⟨r, rfl, left⟩
    | background effect => exact .inl ⟨task, member, rfl⟩
    | poll id event =>
      simp only [Executor.step, Executor.apply, halted, Bool.false_eq_true, if_false, Executor.poll,
        List.mem_filterMap] at member
      obtain ⟨old, there, advanced⟩ := member
      refine .inl ⟨old, there, ?_⟩
      rw [Task.advance] at advanced
      (repeat' split at advanced) <;> cases advanced <;> rfl

variable {μ : W → M} {price : List ε → M}

theorem prices_run {steps : List (Step ε W)} (priced : ∀ r, Step.react r ∈ steps → Priced μ price r)
    (world : W) :
    ∀ task ∈ ((Executor.start world).run steps).tasks, Prices μ price task.future := by
  induction steps using List.reverseRecOn with
  | nil =>
    intro task member
    cases member
  | append_singleton steps s inductionHypothesis =>
    intro task member
    rw [Executor.run_concat] at member
    rcases Executor.future_of_mem_step member with ⟨old, there, same⟩ | ⟨r, reacts, left⟩
    · rw [same]
      exact inductionHypothesis (fun r earlier => priced r (List.mem_append_left _ earlier)) old there
    · have last : Step.react r ∈ steps ++ [s] := by
        rw [← reacts]
        exact List.mem_append_right _ List.mem_cons_self
      exact (priced r last).later _ left

/-- One step adds the price of what the task it settles has been told. -/
theorem price_step {x : Executor ε W} {s : Step ε W}
    (tasks : ∀ task ∈ x.tasks, Prices μ price task.future)
    (reacts : ∀ r, s = .react r → Priced μ price r)
    (quiet : ∀ effect, s = .background effect → ∀ w, μ (effect w) = μ w) :
    μ (x.step s).world = μ x.world + (x.settledBy s).elim 0 price := by
  cases s with
  | react r =>
    have kept : μ (x.step (.react r)).world = μ x.world := by
      cases halted : x.halted with
      | true => simp only [Executor.step, Executor.apply, halted, if_true]
      | false =>
        by_cases panics : r.leaves = .panic
        · rw [Executor.step_panic halted panics]
          exact (reacts r rfl).now _
        · rw [Executor.step_react halted panics]
          exact (reacts r rfl).now _
    rw [kept]
    exact (add_zero _).symm
  | background effect => exact (quiet effect rfl _).trans (add_zero _).symm
  | poll id event =>
    cases halted : x.halted with
    | true =>
      simp only [Executor.step, Executor.apply, Executor.settledBy, halted, if_true, Option.elim_none,
        add_zero]
    | false =>
      rw [Executor.step_poll halted]
      simp only [Executor.settledBy, Executor.effectOf, halted, Bool.false_eq_true, if_false]
      cases found : x.tasks.find? (·.id = id) with
      | none => exact (add_zero _).symm
      | some task =>
        simp only [Option.map_some, Option.bind_some]
        cases settled : (task.poll event).settled with
        | none => exact (add_zero _).symm
        | some effect =>
          obtain ⟨n, told⟩ := Task.told_of_settled settled
          exact tasks task (List.mem_of_find?_eq_some found) _ _ _ told _

end Prices

end Executors
