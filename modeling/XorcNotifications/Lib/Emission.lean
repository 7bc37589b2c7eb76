import XorcNotifications.Lib.Ledger

/-!
# What an executor lets out

A plan says what a reaction lets out: some outputs at once, and the others when a future
resolves.  If every reaction of a run follows its plan, then what the run lets out can be
said without an executor: the outputs of the plans, each at its moment, in this order.

What is seen of the outputs is up to the user of the rule: `look` reads it off a world, and
`take` adds one output to it.
-/

namespace Executors

open Futures

variable {ε W A S : Type}

/-! ## Plans -/

structure Plan (ε A : Type) where
  now : List A
  later : Option (Future ε (List A))

def Plan.silent : Plan ε A := ⟨[], none⟩

section Shows

variable (look : W → S) (take : S → A → S)

/-- The effect is seen as these outputs, one after another. -/
def Shows (effect : W → W) (outputs : List A) : Prop :=
  ∀ w, look (effect w) = outputs.foldl take (look w)

/-- After any polls both futures are pending, or both have resolved, the one with an effect
    that shows the outputs of the other. -/
def ShowsLater (future : Future ε (W → W)) (planned : Future ε (List A)) : Prop :=
  ∀ polls, Option.Rel (Shows look take) (future.outcome polls) (planned.outcome polls)

/-- The reaction lets out what is planned, at once and later. -/
structure Follows (r : Reaction ε W) (plan : Plan ε A) : Prop where
  now : Shows look take r.now plan.now
  later : match r.leaves with
    | .task future => ∃ planned, plan.later = some planned ∧ ShowsLater look take future planned
    | .nothing | .panic => plan.later = none

variable {look take}

theorem follows_nothing {now : W → W} {outputs : List A} (shows : Shows look take now outputs) :
    Follows look take (⟨now, .nothing⟩ : Reaction ε W) ⟨outputs, none⟩ :=
  ⟨shows, rfl⟩

theorem follows_panic {now : W → W} {outputs : List A} (shows : Shows look take now outputs) :
    Follows look take (⟨now, .panic⟩ : Reaction ε W) ⟨outputs, none⟩ :=
  ⟨shows, rfl⟩

theorem follows_task {α : Type} {now : W → W} {outputs : List A} {future : Future ε α}
    {done : α → W → W} {planned : α → List A} (shows : Shows look take now outputs)
    (showsLater : ∀ a, Shows look take (done a) (planned a)) :
    Follows look take ⟨now, .task (future.map done)⟩ ⟨outputs, some (future.map planned)⟩ := by
  refine ⟨shows, future.map planned, rfl, fun polls => ?_⟩
  rw [Future.outcome_map, Future.outcome_map]
  cases future.outcome polls with
  | none => exact .none
  | some a => exact .some (showsLater a)

end Shows

/-! ## The outputs of a run -/

/-- Which task each step of a run polls, if it polls one, and what it reports to it. -/
abbrev Schedule (ε : Type) := List (Option (Nat × Option ε))

namespace Schedule

/-- The polls of the task that the step at position `i` has left. -/
def pollsOf (schedule : Schedule ε) (i : Nat) : List (Option ε) :=
  (schedule.drop (i + 1)).filterMap fun turn =>
    turn.bind fun poll => if poll.1 = i then some poll.2 else none

theorem pollsOf_concat {schedule : Schedule ε} {i : Nat} (bound : i < schedule.length)
    (turn : Option (Nat × Option ε)) :
    pollsOf (schedule ++ [turn]) i =
      pollsOf schedule i ++ (turn.bind fun poll => if poll.1 = i then some poll.2 else none).toList := by
  rw [pollsOf, List.drop_append_of_le_length bound, List.filterMap_append, pollsOf]
  cases said : turn.bind fun poll => if poll.1 = i then some poll.2 else none <;> simp [said]

/-- A step that is not there yet, or is the last one, has not been polled. -/
theorem pollsOf_of_le {schedule : Schedule ε} {i : Nat} (beyond : schedule.length ≤ i + 1) :
    schedule.pollsOf i = [] := by
  rw [pollsOf, List.drop_of_length_le beyond, List.filterMap_nil]

end Schedule

/-- What the polls since `before` have made of the future: its outputs, if it has resolved. -/
def fresh (planned : Option (Future ε (List A))) (before after : List (Option ε)) : List A :=
  planned.elim [] fun future =>
    if (future.outcome before).isSome then [] else (future.outcome after).getD []

/-- What the step at position `j` lets out, where the step at `i` has the plan `plans i`. -/
def emittedAt (plans : Nat → Plan ε A) (schedule : Schedule ε) (j : Nat) : List A :=
  match schedule[j]? with
  | some (some (i, _)) =>
    fresh (plans i).later (Schedule.pollsOf (schedule.take j) i) (Schedule.pollsOf (schedule.take (j + 1)) i)
  | some none => (plans j).now
  | none => []

def emitted (plans : Nat → Plan ε A) (schedule : Schedule ε) : List A :=
  (List.range schedule.length).flatMap (emittedAt plans schedule)

theorem emittedAt_concat (plans : Nat → Plan ε A) {schedule : Schedule ε} {j : Nat}
    (bound : j < schedule.length) (turn : Option (Nat × Option ε)) :
    emittedAt plans (schedule ++ [turn]) j = emittedAt plans schedule j := by
  rw [emittedAt, emittedAt, List.getElem?_append_left bound,
    List.take_append_of_le_length (Nat.le_of_lt bound), List.take_append_of_le_length bound]

theorem emitted_concat (plans : Nat → Plan ε A) (schedule : Schedule ε) (turn : Option (Nat × Option ε)) :
    emitted plans (schedule ++ [turn]) =
      emitted plans schedule ++ emittedAt plans (schedule ++ [turn]) schedule.length := by
  rw [emitted, List.length_append, List.length_singleton, List.range_succ, List.flatMap_append,
    List.flatMap_singleton, emitted]
  congr 1
  exact List.flatMap_congr fun j member => emittedAt_concat plans (List.mem_range.mp member) turn

theorem emittedAt_last_none (plans : Nat → Plan ε A) (schedule : Schedule ε) :
    emittedAt plans (schedule ++ [none]) schedule.length = (plans schedule.length).now := by
  rw [emittedAt, List.getElem?_concat_length]

theorem emittedAt_last_poll (plans : Nat → Plan ε A) {schedule : Schedule ε} {i : Nat}
    (bound : i < schedule.length) (event : Option ε) :
    emittedAt plans (schedule ++ [some (i, event)]) schedule.length =
      fresh (plans i).later (schedule.pollsOf i) (schedule.pollsOf i ++ [event]) := by
  rw [emittedAt, List.getElem?_concat_length]
  have whole : (schedule ++ [some (i, event)]).take (schedule.length + 1) = schedule ++ [some (i, event)] :=
    List.take_of_length_le (by simp)
  simp only [List.take_left, whole, Schedule.pollsOf_concat bound, Option.bind_some, if_pos,
    Option.toList_some]

/-- A task that is not there yet has no outcome. -/
theorem emittedAt_last_poll_of_le (plans : Nat → Plan ε A) {schedule : Schedule ε} {i : Nat}
    (beyond : schedule.length ≤ i) (event : Option ε) :
    emittedAt plans (schedule ++ [some (i, event)]) schedule.length = [] := by
  have none : Schedule.pollsOf ((schedule ++ [some (i, event)]).take (schedule.length + 1)) i = [] :=
    Schedule.pollsOf_of_le (by simp; omega)
  simp only [emittedAt, List.getElem?_concat_length, none, fresh]
  cases (plans i).later with
  | none => rfl
  | some future =>
    rw [Option.elim_some]
    split <;> rfl

/-! ### Which outputs there are -/

/-- What the future of the plan at `i` has resolved with, if there is one and it has. -/
def settledOutputs (plans : Nat → Plan ε A) (schedule : Schedule ε) (i : Nat) : List A :=
  (plans i).later.elim [] fun future => (future.outcome (schedule.pollsOf i)).getD []

theorem settledOutputs_concat_of_ne (plans : Nat → Plan ε A) (schedule : Schedule ε)
    {turn : Option (Nat × Option ε)} {i : Nat} (other : ∀ event, turn ≠ some (i, event)) :
    settledOutputs plans (schedule ++ [turn]) i = settledOutputs plans schedule i := by
  have same : Schedule.pollsOf (schedule ++ [turn]) i = schedule.pollsOf i := by
    by_cases bound : i < schedule.length
    · have none : (turn.bind fun poll => if poll.1 = i then some poll.2 else none) = none := by
        cases turn with
        | none => rfl
        | some poll =>
          rw [Option.bind_some, if_neg]
          rintro rfl
          exact other poll.2 rfl
      rw [Schedule.pollsOf_concat bound, none, Option.toList_none, List.append_nil]
    · rw [Schedule.pollsOf_of_le (by simp; omega), Schedule.pollsOf_of_le (by omega)]
  rw [settledOutputs, same, settledOutputs]

/-- A poll adds to them what it is the first to bring about. -/
theorem settledOutputs_concat_poll (plans : Nat → Plan ε A) {schedule : Schedule ε} {i : Nat}
    (bound : i < schedule.length) (event : Option ε) :
    settledOutputs plans (schedule ++ [some (i, event)]) i =
      settledOutputs plans schedule i ++
        fresh (plans i).later (schedule.pollsOf i) (schedule.pollsOf i ++ [event]) := by
  simp only [settledOutputs, fresh, Schedule.pollsOf_concat bound, Option.bind_some, if_pos,
    Option.toList_some]
  cases (plans i).later with
  | none => rfl
  | some future =>
    cases settled : future.outcome (schedule.pollsOf i) with
    | none => simp [settled]
    | some outputs => simp [settled, Future.outcome_stable settled event]

theorem mem_settledOutputs_concat_poll (plans : Nat → Plan ε A) (schedule : Schedule ε) (a : A) (j : Nat)
    (event : Option ε) :
    (∃ i, a ∈ settledOutputs plans (schedule ++ [some (j, event)]) i) ↔
      (∃ i, a ∈ settledOutputs plans schedule i) ∨
        a ∈ emittedAt plans (schedule ++ [some (j, event)]) schedule.length := by
  have other : ∀ i, i ≠ j → settledOutputs plans (schedule ++ [some (j, event)]) i =
      settledOutputs plans schedule i := fun i different =>
    settledOutputs_concat_of_ne plans schedule fun event' same => different (by cases same; rfl)
  rcases Nat.lt_or_ge j schedule.length with bound | beyond
  · have here := settledOutputs_concat_poll plans bound event
    rw [emittedAt_last_poll plans bound]
    constructor
    · rintro ⟨i, member⟩
      by_cases same : i = j
      · subst same
        rw [here, List.mem_append] at member
        exact member.imp_left fun before => ⟨i, before⟩
      · exact .inl ⟨i, other i same ▸ member⟩
    · rintro (⟨i, member⟩ | member)
      · by_cases same : i = j
        · subst same
          exact ⟨i, here ▸ List.mem_append_left _ member⟩
        · exact ⟨i, (other i same).symm ▸ member⟩
      · exact ⟨j, here ▸ List.mem_append_right _ member⟩
  · -- The poll of a task that is not there yet brings nothing about.
    have nothing : ∀ i, settledOutputs plans (schedule ++ [some (j, event)]) i =
        settledOutputs plans schedule i := by
      intro i
      by_cases same : i = j
      · subst same
        rw [settledOutputs, settledOutputs, Schedule.pollsOf_of_le (by simp; omega),
          Schedule.pollsOf_of_le (by omega)]
      · exact other i same
    simp only [nothing, emittedAt_last_poll_of_le plans beyond, List.not_mem_nil, or_false]

/-- Each output is one that a plan has at once, or that its future has resolved with. -/
theorem mem_emitted_iff (plans : Nat → Plan ε A) (schedule : Schedule ε) (a : A) :
    a ∈ emitted plans schedule ↔
      (∃ i : Nat, schedule[i]? = some none ∧ a ∈ (plans i).now) ∨
        ∃ i, a ∈ settledOutputs plans schedule i := by
  induction schedule using List.reverseRecOn with
  | nil =>
    refine iff_of_false (fun member => nomatch member) ?_
    rintro (⟨i, position, -⟩ | ⟨i, member⟩)
    · cases position
    · rw [settledOutputs] at member
      cases later : (plans i).later <;> rw [later] at member <;> cases member
  | append_singleton schedule turn inductionHypothesis =>
    have position : ∀ i : Nat, (schedule ++ [turn])[i]? = some none ↔
        schedule[i]? = some none ∨ (i = schedule.length ∧ turn = none) := by
      intro i
      rcases Nat.lt_trichotomy i schedule.length with before | rfl | beyond
      · rw [List.getElem?_append_left before]
        simp [Nat.ne_of_lt before]
      · simp
      · rw [List.getElem?_eq_none (by simp; omega), List.getElem?_eq_none (Nat.le_of_lt beyond)]
        simp [Nat.ne_of_gt beyond]
    rw [emitted_concat, List.mem_append, inductionHypothesis]
    simp only [position, or_and_right, exists_or]
    cases turn with
    | none =>
      have same : ∀ i, settledOutputs plans (schedule ++ [none]) i = settledOutputs plans schedule i :=
        fun i => settledOutputs_concat_of_ne plans schedule fun _ => nofun
      simp only [emittedAt_last_none, same, and_true, exists_eq_left]
      exact or_right_comm
    | some poll =>
      obtain ⟨j, event⟩ := poll
      simp only [reduceCtorEq, and_false, false_and, exists_false, or_false, or_assoc]
      rw [← mem_settledOutputs_concat_poll]

/-! ## Runs that follow their plans -/

def Step.turn : Step ε W → Option (Nat × Option ε)
  | .poll task event => some (task, event)
  | .react _ | .background _ => none

theorem pollOf_eq_turn (i : Nat) (s : Step ε W) :
    s.pollOf i = s.turn.bind fun poll => if poll.1 = i then some poll.2 else none := by
  cases s <;> rfl

theorem pollsOf_map_turn (steps : List (Step ε W)) (i : Nat) :
    Schedule.pollsOf (steps.map Step.turn) i = pollsOf steps i := by
  rw [Schedule.pollsOf, ← List.map_drop, List.filterMap_map, pollsOf]
  exact List.filterMap_congr fun s _ => (pollOf_eq_turn i s).symm

section Run

variable (look : W → S) (take : S → A → S)

/-- A reaction lets out what is planned, and no other step plans anything. -/
def Step.Follows (plan : Plan ε A) : Step ε W → Prop
  | .react r => Executors.Follows look take r plan
  | .background effect => Shows look take effect [] ∧ plan = .silent
  | .poll _ _ => plan = .silent

def FollowsPlans (plans : Nat → Plan ε A) (steps : List (Step ε W)) : Prop :=
  ∀ (i : Nat) (s : Step ε W), steps[i]? = some s → s.Follows look take (plans i)

variable {look take} {plans : Nat → Plan ε A}

theorem FollowsPlans.of_concat {steps : List (Step ε W)} {s : Step ε W}
    (follows : FollowsPlans look take plans (steps ++ [s])) : FollowsPlans look take plans steps := by
  intro i s' position
  refine follows i s' ?_
  rw [List.getElem?_append_left (List.getElem?_eq_some_iff.mp position).1, position]

/-- What a poll of the task at position `i` does to the world of a calm run. -/
theorem effectOf_run {steps : List (Step ε W)} (calm : Calm steps) (world : W) {i : Nat}
    (bound : i < steps.length) (event : Option ε) :
    ((Executor.start world).run steps).effectOf i event =
      (pendingAt steps i).bind fun task => (task.poll event).settled := by
  rw [Executor.effectOf, (run_tasks calm world).1, find_pendingTasks, if_pos bound]

/-- What a further poll makes of a task that was left at position `i`. -/
theorem settles_poll {steps : List (Step ε W)} {i : Nat} {now : W → W} {future : Future ε (W → W)}
    (position : steps[i]? = some (.react ⟨now, .task future⟩)) (event : Option ε) :
    ((pendingAt steps i).bind fun task => (task.poll event).settled) =
      match future.outcome (pollsOf steps i) with
      | some _ => none
      | none => future.outcome (pollsOf steps i ++ [event]) := by
  rcases Option.eq_none_or_eq_some (future.outcome (pollsOf steps i)) with settled | ⟨effect, settled⟩ <;>
    simp [pendingAt, taskAt, position, Option.filter, Task.settled, Task.poll, settled]

/-- It is the effect that the plan shows, if there is one. -/
theorem shows_poll {steps : List (Step ε W)} (follows : FollowsPlans look take plans steps) {i : Nat}
    (bound : i < steps.length) (event : Option ε) (w : W) :
    look (((pendingAt steps i).bind fun task => (task.poll event).settled).elim w fun effect => effect w) =
      (fresh (plans i).later (pollsOf steps i) (pollsOf steps i ++ [event])).foldl take (look w) := by
  have position := List.getElem?_eq_getElem bound
  have planned := follows i _ position
  rcases isStep : steps[i] with ⟨effect, _ | future | _⟩ | effect | ⟨task, report⟩ <;>
    rw [isStep] at position planned
  · have later : (plans i).later = none := planned.later
    simp [pendingAt, taskAt, position, later, fresh]
  · obtain ⟨outputs, later, shows⟩ := planned.later
    rw [settles_poll position, later, fresh, Option.elim_some]
    have before := shows (pollsOf steps i)
    have after := shows (pollsOf steps i ++ [event])
    generalize future.outcome (pollsOf steps i) = settled at before
    generalize outputs.outcome (pollsOf steps i) = said at before
    generalize future.outcome (pollsOf steps i ++ [event]) = settledNow at after
    generalize outputs.outcome (pollsOf steps i ++ [event]) = saidNow at after
    -- The task and its plan have had an outcome before, get one now, or still have none.
    cases before with
    | some _ => rfl
    | none =>
      cases after with
      | some showsNow => exact showsNow w
      | none => rfl
  · have later : (plans i).later = none := planned.later
    simp [pendingAt, taskAt, position, later, fresh]
  · have silent : plans i = .silent := planned.2
    simp [pendingAt, taskAt, position, silent, Plan.silent, fresh]
  · have silent : plans i = .silent := planned
    simp [pendingAt, taskAt, position, silent, Plan.silent, fresh]

theorem look_step_poll {steps : List (Step ε W)} (calm : Calm steps)
    (follows : FollowsPlans look take plans steps) (world : W) (i : Nat) (event : Option ε) :
    look (((Executor.start world).run steps).step (.poll i event)).world =
      (emittedAt plans (steps.map Step.turn ++ [some (i, event)]) (steps.map Step.turn).length).foldl take
        (look ((Executor.start world).run steps).world) := by
  obtain ⟨tasks, -, running⟩ := run_tasks calm world
  rw [Executor.step_poll running]
  by_cases bound : i < steps.length
  · rw [emittedAt_last_poll plans (by rwa [List.length_map]), pollsOf_map_turn, effectOf_run calm world bound]
    exact shows_poll follows bound event _
  · have absent : ((Executor.start world).run steps).effectOf i event = none := by
      rw [Executor.effectOf, tasks, find_pendingTasks, if_neg bound]
      rfl
    rw [emittedAt_last_poll_of_le plans (by rw [List.length_map]; exact Nat.le_of_not_lt bound), absent]
    rfl

/-- A calm run lets out what its plans say, in the order of their moments. -/
theorem look_run {steps : List (Step ε W)} (calm : Calm steps)
    (follows : FollowsPlans look take plans steps) (world : W) :
    look ((Executor.start world).run steps).world =
      (emitted plans (steps.map Step.turn)).foldl take (look world) := by
  induction steps using List.reverseRecOn with
  | nil => rfl
  | append_singleton steps s inductionHypothesis =>
    have before := inductionHypothesis calm.of_concat follows.of_concat
    have last := follows steps.length s List.getElem?_concat_length
    rw [Executor.run_concat, List.map_append, List.map_singleton, emitted_concat, List.foldl_append, ← before]
    cases s with
    | react r =>
      have running := (run_tasks calm.of_concat world).2.2
      have quiet := calm r (List.mem_append_right _ List.mem_cons_self)
      rw [Executor.step_react running quiet, Step.turn, emittedAt_last_none, List.length_map]
      exact last.now _
    | background effect =>
      obtain ⟨shows, silent⟩ := last
      rw [Step.turn, emittedAt_last_none, List.length_map, silent]
      exact shows _
    | poll i event => exact look_step_poll calm.of_concat follows.of_concat world i event

/-! ## After a panic -/

/-- A halted executor lets nothing out. -/
theorem look_run_halted {x : Executor ε W} (halted : x.halted = true) {steps : List (Step ε W)}
    (quiet : ∀ effect, Step.background effect ∈ steps → ∀ w, look (effect w) = look w) :
    look (x.run steps).world = look x.world := by
  induction steps generalizing x with
  | nil => rfl
  | cons s steps inductionHypothesis =>
    rw [Executor.run_cons, inductionHypothesis (Executor.halted_step halted s)
      fun effect member => quiet effect (List.mem_cons_of_mem s member)]
    cases s with
    | react r => simp only [Executor.step, Executor.apply, halted, if_true]
    | background effect => exact quiet effect List.mem_cons_self x.world
    | poll i event => simp only [Executor.step, Executor.apply, halted, if_true]

end Run

end Executors
