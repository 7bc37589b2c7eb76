import XorcNotifications.Common.RequestConsumer

/-!
# Sessions as runs of the executor

Which step a call is to the executor depends on the tenant table of its moment.  The
trace of a session lists these steps, so that the rules about executors apply to it.
-/

namespace XorcNotifications

open Executors KeyedTables

namespace Session

variable {H : EventHandler}

@[simp] theorem run_nil (s : Session H) : s.run [] = s := rfl

@[simp] theorem run_cons (s : Session H) (call : HandlerCall H) (calls : List (HandlerCall H)) :
    s.run (call :: calls) = (s.step call).run calls := rfl

theorem run_concat (s : Session H) (calls : List (HandlerCall H)) (call : HandlerCall H) :
    s.run (calls ++ [call]) = (s.run calls).step call := by
  simp only [run, List.foldl_append, List.foldl_cons, List.foldl_nil]

/-- The steps that the calls are to the executor. -/
def trace (s : Session H) : List (HandlerCall H) → List (Step H.Event (World H.Call))
  | [] => []
  | call :: calls => call.toStep s.tenants :: (s.step call).trace calls

@[simp] theorem length_trace (s : Session H) (calls : List (HandlerCall H)) :
    (s.trace calls).length = calls.length := by
  induction calls generalizing s with
  | nil => rfl
  | cons call calls inductionHypothesis => simp only [trace, List.length_cons, inductionHypothesis]

theorem executor_run (s : Session H) (calls : List (HandlerCall H)) :
    (s.run calls).executor = s.executor.run (s.trace calls) := by
  induction calls generalizing s with
  | nil => rfl
  | cons call calls inductionHypothesis =>
    rw [run_cons, inductionHypothesis]
    rfl

theorem getElem?_trace (s : Session H) (calls : List (HandlerCall H)) (i : Nat) :
    (s.trace calls)[i]? = calls[i]?.map (HandlerCall.toStep (s.run (calls.take i)).tenants) := by
  induction calls generalizing s i with
  | nil => rfl
  | cons call calls inductionHypothesis =>
    cases i with
    | zero => rfl
    | succ i => exact inductionHypothesis (s.step call) i

theorem mem_trace {s : Session H} {calls : List (HandlerCall H)} {step : Step H.Event (World H.Call)}
    (member : step ∈ s.trace calls) : ∃ tenants, ∃ call ∈ calls, step = call.toStep tenants := by
  obtain ⟨i, position⟩ := List.mem_iff_getElem?.mp member
  rw [getElem?_trace, Option.map_eq_some_iff] at position
  obtain ⟨call, atI, rfl⟩ := position
  exact ⟨_, call, List.mem_of_getElem? atI, rfl⟩

theorem filterMap_pollOf_trace (s : Session H) (calls : List (HandlerCall H)) (i : Nat)
    (pollOf : HandlerCall H → Option (Option H.Event))
    (same : ∀ tenants call, Step.pollOf i (HandlerCall.toStep tenants call) = pollOf call) :
    (s.trace calls).filterMap (Step.pollOf i) = calls.filterMap pollOf := by
  induction calls generalizing s with
  | nil => rfl
  | cons call calls inductionHypothesis =>
    simp only [trace, List.filterMap_cons, same, inductionHypothesis]

theorem drop_trace (s : Session H) (calls : List (HandlerCall H)) (n : Nat) :
    (s.trace calls).drop n = (s.run (calls.take n)).trace (calls.drop n) := by
  induction n generalizing s calls with
  | zero => rfl
  | succ n inductionHypothesis =>
    cases calls with
    | nil => rfl
    | cons call calls => exact inductionHypothesis (s.step call) calls

end Session

namespace HandlerCall

variable {H : EventHandler}

/-- The poll of task `i` that a call is, if it is one. -/
def pollOf (i : Nat) : HandlerCall H → Option (Option H.Event)
  | .poll task event => if task = i then some event else none
  | _ => none

/-- The polls of the task that the call at position `i` has left. -/
def pollsOf (calls : List (HandlerCall H)) (i : Nat) : List (Option H.Event) :=
  (calls.drop (i + 1)).filterMap (pollOf i)

theorem pollsOf_trace (s : Session H) (calls : List (HandlerCall H)) (i : Nat) :
    Executors.pollsOf (s.trace calls) i = pollsOf calls i := by
  rw [Executors.pollsOf, Session.drop_trace, pollsOf]
  refine Session.filterMap_pollOf_trace _ _ i (pollOf i) fun tenants call => ?_
  cases call <;> rfl

end HandlerCall

/-! ## The request loop -/

namespace RequestConsumer

variable (pb : Protobuf) {H : EventHandler}

/-- The state of the request loop is that of a session with one call for every input. -/
theorem session_foldl (s : State H) (inputs : List (Input H)) :
    (inputs.foldl (State.step pb) s).session = s.session.run (inputs.map (Input.toCall pb H)) := by
  induction inputs generalizing s with
  | nil => rfl
  | cons input inputs inductionHypothesis =>
    rw [List.foldl_cons, inductionHypothesis]
    rfl

theorem session_handleRequests (inputs : List (Input H)) :
    (handleRequests pb H inputs).session = (Session.start H).run (inputs.map (Input.toCall pb H)) :=
  session_foldl pb (State.start H) inputs

def Input.pollOf (i : Nat) : Input H → Option (Option H.Event)
  | .poll task event => if task = i then some event else none
  | _ => none

/-- The polls of the task that the input at position `i` has left. -/
def pollsOf (inputs : List (Input H)) (i : Nat) : List (Option H.Event) :=
  (inputs.drop (i + 1)).filterMap (Input.pollOf i)

theorem pollsOf_map (inputs : List (Input H)) (i : Nat) :
    HandlerCall.pollsOf (inputs.map (Input.toCall pb H)) i = pollsOf inputs i := by
  rw [HandlerCall.pollsOf, ← List.map_drop, List.filterMap_map, pollsOf]
  refine List.filterMap_congr fun input _ => ?_
  -- No message becomes a poll.
  cases input with
  | item result =>
    cases result with
    | ok msg =>
      simp only [Function.comp_apply, Input.toCall, processRequest, handlePush, handleHttp]
      (repeat' split) <;> rfl
    | error e => rfl
  | config clients id application => rfl
  | poll task event => rfl

/-- The messages that have been taken from the stream, in order. -/
def consumed (inputs : List (Input H)) : List BorrowedMessage :=
  inputs.filterMap fun
    | .item (.ok msg) => some msg
    | _ => none

/-- As long as the loop runs, every message it has taken has its offset stored. -/
theorem stored_handleRequests {inputs : List (Input H)}
    (running : (handleRequests pb H inputs).session.executor.halted = false) :
    (handleRequests pb H inputs).stored = consumed inputs := by
  induction inputs using List.reverseRecOn with
  | nil => rfl
  | append_singleton inputs input inductionHypothesis =>
    -- A loop that still runs has not been halted earlier on.
    have last : handleRequests pb H (inputs ++ [input]) = (handleRequests pb H inputs).step pb input := by
      simp only [handleRequests, List.foldl_append, List.foldl_cons, List.foldl_nil]
    rw [last] at running
    have before : (handleRequests pb H inputs).session.executor.halted = false :=
      Executor.running_of_step running
    rw [last, consumed, List.filterMap_append, ← consumed, ← inductionHypothesis before]
    cases input with
    | item result =>
      cases result with
      | ok msg => simp [State.step, before]
      | error e => simp [State.step]
    | config clients id application => simp [State.step]
    | poll task event => simp [State.step]

end RequestConsumer

end XorcNotifications
