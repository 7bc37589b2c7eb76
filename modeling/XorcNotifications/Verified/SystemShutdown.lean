import XorcNotifications.Common.System
import XorcNotifications.Services

/-!
# The shutdown of a service

After the signal the main thread sends, joins and unwraps.  An unwrap that fails ends
`System::start` there, so a shutdown is complete exactly in the runs in which the signal
reaches the main thread, no send finds its receiver gone and no join of a consumer finds a
panic; the join of the server is the last step and may fail.
-/

namespace XorcNotifications

open Machines RequestConsumer

namespace System

/-! ## The consumers of a running system -/

/-- What the action is to the request consumer. -/
def Action.input {H : EventHandler} (pb : Protobuf) : Action H → Option (Input H)
  | .item result => some (.item result)
  | .poll task event => some (.poll task event)
  | .configure clients msg =>
    match configCall pb msg with
    | .ok (some (id, application)) => some (.config clients id application)
    | _ => none
  | _ => none

/-- The request consumer after the action. -/
def State.consumerAfter {H : EventHandler} (pb : Protobuf) (s : State H) (action : Action H) :
    RequestConsumer.State H :=
  (action.input pb).elim s.consumer (s.consumer.step pb)

/-! ## Threads that have ended -/

def ThreadState.ended (thread : ThreadState) : Bool :=
  match thread.phase with
  | .returned | .panicked => true
  | .running | .closing => false

/-- A thread that has returned has done what it has to do before. -/
def ThreadState.Orderly (thread : Thread) (state : ThreadState) : Prop :=
  thread.isConsumer = true → state.phase = .returned → state.committed = true

namespace State

variable {H : EventHandler}

@[simp] theorem set_threads (s : State H) (thread : Thread) (next : ThreadState) :
    (s.set thread next).threads = Function.update s.threads thread next := rfl

theorem set_threads_self (s : State H) (thread : Thread) : s.set thread (s.threads thread) = s := by
  rw [set, Function.update_eq_self]

variable (pb : Protobuf)

/-! ## What a step does -/

/-- The steps of the main thread, and one form for the steps of all other threads. -/
inductive Effect (s : State H) : Action H → State H → Prop where
  | signal : s.main = .waiting → Effect s .signal { s with main := .sending .server }
  | send {thread} : s.main = .sending thread → s.listens thread = true →
      Effect s .main { s.tell thread with main := .afterSend thread }
  | sendFails {thread} : s.main = .sending thread → s.listens thread = false →
      Effect s .main { s with main := .unwinding }
  | join {thread} : s.main = .joining thread → (s.threads thread).phase = .returned →
      Effect s .main { s with joined := s.joined ++ [thread], main := .afterJoin thread }
  | joinFails {thread} : s.main = .joining thread → (s.threads thread).phase = .panicked →
      Effect s .main { s with joined := s.joined ++ [thread], main := .unwinding }
  | unwinds : s.main = .unwinding → Effect s .main { s with main := .unwound }
  | kill : s.main.isOver = false → Effect s .kill { s with main := .killed }
  | thread {action} (thread : Thread) (next : ThreadState) :
      s.main.isOver = false → (s.threads thread).ended = false →
      next.told = (s.threads thread).told → next.Orderly thread →
      Effect s action ({ s with consumer := s.consumerAfter pb action }.set thread next)

theorem effect_of_proceed {s s' : State H} (stepped : s.proceed = some s') :
    s.Effect pb .main s' := by
  rw [proceed] at stepped
  cases turn : s.main with
  | sending thread =>
    simp only [turn] at stepped
    cases listens : s.listens thread with
    | true =>
      simp only [listens, if_true, Option.some.injEq] at stepped
      rw [← stepped]
      exact .send turn listens
    | false =>
      simp only [listens, Bool.false_eq_true, if_false, Option.some.injEq] at stepped
      rw [← stepped]
      exact .sendFails turn listens
  | joining thread =>
    simp only [turn] at stepped
    cases phase : (s.threads thread).phase with
    | returned =>
      simp only [phase, Option.some.injEq] at stepped
      rw [← stepped]
      exact .join turn phase
    | panicked =>
      simp only [phase, Option.some.injEq] at stepped
      rw [← stepped]
      exact .joinFails turn phase
    | running => simp only [phase, reduceCtorEq] at stepped
    | closing => simp only [phase, reduceCtorEq] at stepped
  | unwinding =>
    simp only [turn, Option.some.injEq] at stepped
    rw [← stepped]
    exact .unwinds turn
  | waiting => simp only [turn, reduceCtorEq] at stepped
  | returned => simp only [turn, reduceCtorEq] at stepped
  | unwound => simp only [turn, reduceCtorEq] at stepped
  | killed => simp only [turn, reduceCtorEq] at stepped

theorem ended_of_phase {thread : ThreadState} (alive : thread.phase = .running ∨ thread.phase = .closing) :
    thread.ended = false := by
  rw [ThreadState.ended]
  cases alive with
  | inl running => rw [running]
  | inr closing => rw [closing]

/-- A change of phase that is not the return of a consumer. -/
theorem effect_of_setPhase {s : State H} (action : Action H) {thread : Thread} {phase : Phase}
    (goesOn : s.main.isOver = false)
    (alive : (s.threads thread).phase = .running ∨ (s.threads thread).phase = .closing)
    (notYet : thread.isConsumer = true → phase ≠ .returned) :
    s.Effect pb action ({ s with consumer := s.consumerAfter pb action }.setPhase thread phase) :=
  .thread thread { s.threads thread with phase := phase } goesOn (ended_of_phase alive) rfl
    fun consumer returned => absurd returned (notYet consumer)

/-- The same for an action that reaches neither consumer. -/
theorem effect_of_move {s s' : State H} (action : Action H) (quiet : action.input pb = none)
    {thread : Thread} {phase next : Phase} (stepped : s.move thread phase next = some s')
    (goesOn : s.main.isOver = false) (alive : phase = .running ∨ phase = .closing)
    (notYet : thread.isConsumer = true → next ≠ .returned) : s.Effect pb action s' := by
  obtain ⟨here, moved⟩ := Option.ite_none_right_eq_some.mp stepped
  cases moved
  have effect := effect_of_setPhase pb action goesOn (here ▸ alive) notYet
  rw [consumerAfter, quiet] at effect
  exact effect

/-- A step that moves the consumer and none of the threads. -/
theorem effect_of_running {s : State H} (action : Action H) {thread : Thread}
    (goesOn : s.main.isOver = false) (running : (s.threads thread).phase = .running) :
    s.Effect pb action { s with consumer := s.consumerAfter pb action } := by
  have effect : s.Effect pb action
      ({ s with consumer := s.consumerAfter pb action }.set thread (s.threads thread)) :=
    .thread thread _ goesOn (ended_of_phase (.inl running)) rfl
      fun _ returned => by rw [running] at returned; cases returned
  rw [set_threads_self { s with consumer := s.consumerAfter pb action } thread] at effect
  exact effect

theorem effect_of_request {s s' : State H} (action : Action H) {input : Input H}
    (handles : action.input pb = some input) (goesOn : s.main.isOver = false)
    (stepped : s.request pb input = some s') : s.Effect pb action s' := by
  obtain ⟨running, next⟩ := Option.ite_none_right_eq_some.mp stepped
  have after : s.consumerAfter pb action = s.consumer.step pb input := by
    rw [consumerAfter, handles]
    rfl
  rw [← after] at next
  cases next
  split
  next => exact effect_of_setPhase pb action goesOn (.inl running) fun _ => nofun
  next => exact effect_of_running pb action goesOn running

theorem effect_of_configure {s s' : State H} {clients : H.Clients} {msg : BorrowedMessage}
    (goesOn : s.main.isOver = false) (stepped : s.configure pb clients msg = some s') :
    s.Effect pb (.configure clients msg) s' := by
  obtain ⟨running, next⟩ := Option.ite_none_right_eq_some.mp stepped
  have stays := effect_of_running pb (.configure clients msg) goesOn running
  have ends : s.Effect pb (.configure clients msg)
      ({ s with consumer := s.consumerAfter pb (.configure clients msg) }.setPhase .config .panicked) :=
    effect_of_setPhase pb _ goesOn (.inl running) fun _ => nofun
  rw [consumerAfter, Action.input] at stays ends
  split at next
  next handled =>
    cases next
    rw [handled] at stays
    exact stays
  next skipped =>
    cases next
    rw [skipped] at stays
    exact stays
  next panics =>
    cases next
    rw [panics] at ends
    exact ends

theorem effect_of_commit {s s' : State H} {thread : Thread} {ok : Bool}
    (goesOn : s.main.isOver = false) (stepped : s.commit thread ok = some s') :
    s.Effect pb (.commit thread ok) s' := by
  obtain ⟨⟨-, closing⟩, committed⟩ := Option.ite_none_right_eq_some.mp stepped
  cases committed
  exact .thread thread _ goesOn (ended_of_phase (.inr closing)) rfl fun _ _ => rfl

/-- Every step of the system is one of the effects. -/
theorem effect_of_step {s s' : State H} {action : Action H} (stepped : step pb s action = some s') :
    s.Effect pb action s' := by
  obtain ⟨goesOn, stepped⟩ := Option.ite_none_left_eq_some.mp stepped
  rw [Bool.not_eq_true] at goesOn
  cases action with
  | signal =>
    obtain ⟨waiting, next⟩ := Option.ite_none_right_eq_some.mp stepped
    cases next
    exact .signal waiting
  | main => exact effect_of_proceed pb stepped
  | item result => exact effect_of_request pb _ rfl goesOn stepped
  | poll task event => exact effect_of_request pb _ rfl goesOn stepped
  | configure clients msg => exact effect_of_configure pb goesOn stepped
  | panic thread => exact effect_of_move pb _ rfl stepped goesOn (.inl rfl) fun _ => nofun
  | finish thread => exact effect_of_move pb _ rfl stepped goesOn (.inl rfl) fun _ => nofun
  | stop thread =>
    obtain ⟨-, stepped⟩ := Option.ite_none_right_eq_some.mp stepped
    exact effect_of_move pb _ rfl stepped goesOn (.inl rfl) fun _ => nofun
  | commit thread ok => exact effect_of_commit pb goesOn stepped
  | disconnect => exact effect_of_move pb _ rfl stepped goesOn (.inr rfl) nofun
  | kill =>
    cases stepped
    exact .kill goesOn

/-! ## What the consumers have done -/

theorem Effect.consumer_eq {s s' : State H} {action : Action H} (effect : s.Effect pb action s') :
    s'.consumer = s.consumerAfter pb action := by
  cases effect <;> rfl

/-- The other threads do not come between the two consumers: what these have done in a run of
    the system is what `handle_requests` does with the inputs of the run. -/
theorem consumer_of_run {actions : List (Action H)} {s : State H} (ran : run pb actions = some s) :
    s.consumer = handleRequests pb H (actions.filterMap (Action.input pb)) := by
  induction actions using List.reverseRecOn generalizing s with
  | nil =>
    cases ran
    rfl
  | append_singleton before action inductionHypothesis =>
    rw [run, Machine.run_concat] at ran
    obtain ⟨reached, ranBefore, stepped⟩ := Option.bind_eq_some_iff.mp ran
    rw [(effect_of_step pb stepped).consumer_eq, consumerAfter, inductionHypothesis ranBefore,
      List.filterMap_append]
    cases input : action.input pb with
    | none => simp [input]
    | some input' => simp [input, handleRequests]

/-! ## What is behind the main thread -/

end State

def Thread.joinedBefore : Thread → List Thread
  | .request => []
  | .config => [.request]
  | .server => [.request, .config]

def Main.joined : Main → List Thread
  | .joining thread => thread.joinedBefore
  | .returned => [.request, .config, .server]
  | .waiting | .sending _ | .unwinding | .unwound | .killed => []

/-- The main thread has not come to its end in the order of its steps. -/
def Main.hasFailed : Main → Bool
  | .unwinding | .unwound | .killed => true
  | _ => false

/-- The main thread has sent the stop to the thread. -/
def Main.hasTold : Main → Thread → Bool
  | .sending .config, .request => true
  | .sending .config, .server => true
  | .sending .request, .server => true
  | .joining _, _ => true
  | .returned, _ => true
  | _, _ => false

@[simp] theorem Main.joined_afterSend (thread : Thread) : (afterSend thread).joined = [] := by
  cases thread <;> rfl

theorem Main.hasTold_afterSend {thread other : Thread}
    (told : (afterSend thread).hasTold other = true) :
    other = thread ∨ (Main.sending thread).hasTold other = true := by
  cases thread <;> cases other <;> simp_all [afterSend, hasTold]

namespace State

variable {H : EventHandler}

/-- What holds of every state of a system. -/
structure Invariant (s : State H) : Prop where
  joined : s.main.hasFailed = false → s.joined = s.main.joined
  told : ∀ thread, s.main.hasTold thread = true → (s.threads thread).told = true
  ended : ∀ thread ∈ s.joined, (s.threads thread).ended = true
  orderly : ∀ thread, (s.threads thread).Orderly thread

theorem Invariant.joined_of_turn {s : State H} (inv : s.Invariant) {turn : Main} (here : s.main = turn)
    (succeeds : turn.hasFailed = false) : s.joined = turn.joined := by
  rw [inv.joined (here ▸ succeeds), here]

/-- Another thread takes a step. -/
theorem Invariant.set {s : State H} (inv : s.Invariant) {thread : Thread} {next : ThreadState}
    (alive : (s.threads thread).ended = false) (told : next.told = (s.threads thread).told)
    (orderly : next.Orderly thread) (consumer : RequestConsumer.State H) :
    ({ s with consumer := consumer }.set thread next).Invariant where
  joined := inv.joined
  told other behind := by
    have before := inv.told other behind
    rw [set_threads, Function.update_apply]
    split
    next same => rw [told, ← same, before]
    next => exact before
  ended other member := by
    have before := inv.ended other member
    rw [set_threads, Function.update_of_ne]
    · exact before
    · rintro rfl
      rw [alive] at before
      cases before
  orderly other := by
    rw [set_threads, Function.update_apply]
    split
    next same => rw [same]; exact orderly
    next => exact inv.orderly other

theorem Invariant.send {s : State H} (inv : s.Invariant) {thread : Thread}
    (turn : s.main = .sending thread) :
    State.Invariant { s.tell thread with main := .afterSend thread } where
  joined _ := by
    rw [Main.joined_afterSend]
    exact inv.joined_of_turn turn rfl
  told other behind := by
    show (Function.update s.threads thread _ other).told = true
    rw [Function.update_apply]
    split
    next => rfl
    next different =>
      cases Main.hasTold_afterSend behind with
      | inl same => exact absurd same different
      | inr before => exact inv.told other (turn ▸ before)
  ended other member := by
    have nobody : s.joined = [] := inv.joined_of_turn turn rfl
    have member : other ∈ s.joined := member
    rw [nobody] at member
    cases member
  orderly other := by
    show (Function.update s.threads thread _ other).Orderly other
    rw [Function.update_apply]
    split
    next same => rw [same]; exact inv.orderly thread
    next => exact inv.orderly other

/-- A join, whatever comes after it. -/
theorem Invariant.join {s : State H} (inv : s.Invariant) {thread : Thread}
    (turn : s.main = .joining thread) (hasEnded : (s.threads thread).ended = true) {main : Main}
    (joined : main.hasFailed = false → main.joined = thread.joinedBefore ++ [thread]) :
    State.Invariant { s with joined := s.joined ++ [thread], main := main } where
  joined succeeds := by
    rw [joined succeeds, inv.joined_of_turn turn rfl]
    rfl
  told other _ := inv.told other (by rw [turn]; rfl)
  ended other member := by
    cases List.mem_append.mp member with
    | inl before => exact inv.ended other before
    | inr last =>
      rw [List.mem_singleton.mp last]
      exact hasEnded
  orderly := inv.orderly

/-- Every thread that had not ended was told to stop, every thread is joined, and every
    consumer that has not panicked has committed. -/
structure ShutdownComplete (s : State H) : Prop where
  told : ∀ thread, (s.threads thread).ended = false → (s.threads thread).told = true
  joined : ∀ thread, thread ∈ s.joined
  committed : ∀ thread : Thread, thread.isConsumer = true → (s.threads thread).phase ≠ .panicked →
    (s.threads thread).committed = true

/-- The main thread fails only at its last join. -/
structure Uninterrupted (s : State H) : Prop extends s.Invariant where
  failed : s.main.hasFailed = true → ∀ thread, thread ∈ s.joined

theorem mem_all_threads (thread : Thread) : thread ∈ [Thread.request, .config, .server] := by
  cases thread <;> simp

theorem Uninterrupted.complete {s : State H} (holds : s.Uninterrupted) (left : s.main.hasLeft = true) :
    s.ShutdownComplete := by
  have joined : ∀ thread, thread ∈ s.joined := by
    cases turn : s.main with
    | returned =>
      intro thread
      rw [holds.joined_of_turn turn rfl]
      exact mem_all_threads thread
    | unwinding => exact holds.failed (by rw [turn]; rfl)
    | unwound => exact holds.failed (by rw [turn]; rfl)
    | killed => exact holds.failed (by rw [turn]; rfl)
    | waiting => rw [turn] at left; cases left
    | sending thread => rw [turn] at left; cases left
    | joining thread => rw [turn] at left; cases left
  refine ⟨fun thread alive => ?_, joined, fun thread consumer notPanicked => ?_⟩
  · rw [holds.ended thread (joined thread)] at alive
    cases alive
  · have ended := holds.ended thread (joined thread)
    refine holds.orderly thread consumer ?_
    cases phase : (s.threads thread).phase with
    | returned => rfl
    | panicked => exact absurd phase notPanicked
    | running => rw [ThreadState.ended, phase] at ended; cases ended
    | closing => rw [ThreadState.ended, phase] at ended; cases ended

end State

namespace State

variable {H : EventHandler}

variable (pb : Protobuf)

end State

/-! ## Which runs shut down -/

end System

end XorcNotifications
