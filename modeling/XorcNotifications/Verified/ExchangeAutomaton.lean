import XorcNotifications.Lib.FutureSteps
import XorcNotifications.HttpRequester.Requester

/-!
# The exchange as an automaton

`Requester::request` is a race, two rewritten errors and a chain.  What they come to is an
automaton of two phases that takes the events of the network and of the timer one by one.
From it the outcomes of every history can be read off: which event ends the exchange, and
what it ends with.
-/

namespace XorcNotifications.HttpRequester

open Futures Futures.Future Machines Requester

/-! ## The automaton -/

/-- The head of the response is not there yet, or its body is on its way. -/
inductive Phase where
  | waiting
  | receiving (head : ResponseHead) (received : Bytes)

namespace Phase

def step : Phase → NetEvent → Phase ⊕ Except RequestError HttpResult
  | .waiting, .head status headers => .inl (.receiving ⟨status, headers⟩ .empty)
  -- Every end of the race but the head is called a timeout.
  | .waiting, .connectionFailed | .waiting, .timerExpired | .waiting, .timerFailed =>
    .inr (.error .timeout)
  | .waiting, .chunk _ | .waiting, .bodyComplete | .waiting, .bodyFailed => .inl .waiting
  | .receiving head received, .chunk bytes => .inl (.receiving head (received ++ bytes))
  | .receiving head received, .bodyComplete => .inr (.ok ⟨head.status, received, head.headers⟩)
  | .receiving _ _, .bodyFailed | .receiving _ _, .connectionFailed => .inr (.error .connection)
  -- Not even the timer ends it here.
  | .receiving head received, .head _ _ | .receiving head received, .timerExpired
  | .receiving head received, .timerFailed => .inl (.receiving head received)

/-! ## The exchange steps as the automaton does -/

/-- The step of `concat2`. -/
def collect (received : Bytes) : NetEvent → Bytes ⊕ Except Unit Bytes
  | .chunk bytes => .inl (received ++ bytes)
  | .bodyComplete => .inr (.ok received)
  | .bodyFailed | .connectionFailed => .inr (.error ())
  | _ => .inl received

/-- What is left of the exchange in each phase. -/
def rest : Phase → Future NetEvent (Except RequestError HttpResult)
  | .waiting => exchange
  | .receiving head received =>
    ((scan collect received).mapErr fun _ => RequestError.connection).mapOk fun chunk =>
      ⟨head.status, chunk, head.headers⟩

theorem live_clientRequest : clientRequest.Live := live_scan _ _

theorem live_timeout : timeout.Live := Live.bind (live_scan _ _) _

theorem live_rest (phase : Phase) : phase.rest.Live := by
  cases phase with
  | waiting => exact (((live_clientRequest.mapErr _).select live_timeout).mapErr _).andThen _
  | receiving head received => exact ((live_scan collect received).mapErr _).mapOk _

section Race

variable {event : NetEvent}

/-- Where neither side of the race has ended, neither has the exchange. -/
theorem exchange_steps (client : clientRequest.StepsTo event clientRequest)
    (timer : sleep.StepsTo event sleep) : exchange.StepsTo event exchange := by
  have waits : timeout.StepsTo event timeout := timer.bind _
  exact (((client.mapErr _).select waits).mapErr _).andThen _

theorem exchange_of_error {error : RequestError}
    (raced : ((clientRequest.mapErr fun _ => RequestError.connection).select timeout).EndsWith event
      (.error error)) : exchange.EndsWith event (.error .timeout) :=
  (raced.mapErr _).andThen_error _

theorem exchange_of_timer {timer : Except Unit Unit} (client : clientRequest.StepsTo event clientRequest)
    (ends : sleep.EndsWith event timer) : exchange.EndsWith event (.error .timeout) := by
  have ended : timeout.EndsWith event (.error .timeout) := .of_ready (ends.bind _)
  exact exchange_of_error (.select_right (client.mapErr _) (live_clientRequest.mapErr _) ended)

theorem exchange_of_failure (failed : clientRequest.EndsWith event (.error ())) :
    exchange.EndsWith event (.error .timeout) :=
  exchange_of_error (.select_left (failed.mapErr _) live_timeout)

theorem exchange_of_head {response : ResponseHead} (head : clientRequest.EndsWith event (.ok response)) :
    exchange.StepsTo event (rest (.receiving response .empty)) := by
  have won : ((clientRequest.mapErr fun _ => RequestError.connection).select timeout).EndsWith event
      (.ok response) := .select_left (head.mapErr _) live_timeout
  exact (won.mapErr _).andThen_ok _

end Race

theorem rest_steps (phase : Phase) (event : NetEvent) :
    (phase.step event).elim (fun next => phase.rest.StepsTo event next.rest) (phase.rest.EndsWith event) := by
  cases phase with
  | waiting =>
    cases event with
    | head status headers => exact exchange_of_head (endsWith_first rfl)
    | connectionFailed => exact exchange_of_failure (endsWith_first rfl)
    | timerExpired => exact exchange_of_timer (stepsTo_first rfl) (endsWith_first rfl)
    | timerFailed => exact exchange_of_timer (stepsTo_first rfl) (endsWith_first rfl)
    | chunk bytes => exact exchange_steps (stepsTo_first rfl) (stepsTo_first rfl)
    | bodyComplete => exact exchange_steps (stepsTo_first rfl) (stepsTo_first rfl)
    | bodyFailed => exact exchange_steps (stepsTo_first rfl) (stepsTo_first rfl)
  | receiving head received =>
    cases event with
    | chunk bytes => exact ((stepsTo_scan rfl).mapErr _).mapOk _
    | head status headers => exact ((stepsTo_scan rfl).mapErr _).mapOk _
    | timerExpired => exact ((stepsTo_scan rfl).mapErr _).mapOk _
    | timerFailed => exact ((stepsTo_scan rfl).mapErr _).mapOk _
    | bodyComplete =>
      have ends : (scan collect received).EndsWith .bodyComplete (.ok received) := endsWith_scan rfl
      exact (ends.mapErr _).mapOk _
    | bodyFailed =>
      have ends : (scan collect received).EndsWith .bodyFailed (.error ()) := endsWith_scan rfl
      exact (ends.mapErr _).mapOk _
    | connectionFailed =>
      have ends : (scan collect received).EndsWith .connectionFailed (.error ()) := endsWith_scan rfl
      exact (ends.mapErr _).mapOk _

theorem exchange_eq_scan (history : List NetEvent) :
    exchange.resolve history = (scan step .waiting).resolve history :=
  resolve_eq_scan live_rest rest_steps .waiting history

end Phase

/-! ## The histories of each outcome -/

/-- The event decides the race for the head. -/
def NetEvent.decidesRace : NetEvent → Bool
  | .head _ _ | .connectionFailed | .timerExpired | .timerFailed => true
  | .chunk _ | .bodyComplete | .bodyFailed => false

/-- The event ends a body that is on its way. -/
def NetEvent.endsBody : NetEvent → Bool
  | .bodyComplete | .bodyFailed | .connectionFailed => true
  | .head _ _ | .chunk _ | .timerExpired | .timerFailed => false

/-- The bytes of the chunks, after what has been received already. -/
def chunksAfter (received : Bytes) (events : List NetEvent) : Bytes :=
  events.foldl (fun received event =>
    match event with
    | .chunk bytes => received ++ bytes
    | _ => received) received

namespace Phase

theorem run_receiving_iff {head : ResponseHead} {received : Bytes} {events : List NetEvent} {reached : Phase} :
    (goesOn step).run (.receiving head received) events = some reached ↔
      (∀ event ∈ events, event.endsBody = false) ∧
        reached = .receiving head (chunksAfter received events) := by
  induction events generalizing received with
  | nil =>
    rw [Machine.run_nil, Option.some_inj]
    constructor
    · rintro rfl
      exact ⟨fun _ none => (List.not_mem_nil none).elim, rfl⟩
    · rintro ⟨_, rfl⟩
      rfl
  | cons event events inductionHypothesis =>
    rw [Machine.run_cons]
    cases event with
    | chunk bytes =>
      simpa [goesOn, step, NetEvent.endsBody, chunksAfter] using @inductionHypothesis (received ++ bytes)
    | head status headers =>
      simpa [goesOn, step, NetEvent.endsBody, chunksAfter] using @inductionHypothesis received
    | timerExpired =>
      simpa [goesOn, step, NetEvent.endsBody, chunksAfter] using @inductionHypothesis received
    | timerFailed =>
      simpa [goesOn, step, NetEvent.endsBody, chunksAfter] using @inductionHypothesis received
    | bodyComplete => simp [goesOn, step, NetEvent.endsBody]
    | bodyFailed => simp [goesOn, step, NetEvent.endsBody]
    | connectionFailed => simp [goesOn, step, NetEvent.endsBody]

theorem run_of_undecided {early : List NetEvent} (undecided : ∀ event ∈ early, event.decidesRace = false) :
    (goesOn step).run .waiting early = some .waiting := by
  induction early with
  | nil => rfl
  | cons event early inductionHypothesis =>
    have first := undecided event List.mem_cons_self
    have stays : goesOn step .waiting event = some .waiting := by
      cases event <;> first | rfl | cases first
    rw [Machine.run_cons, stays]
    exact inductionHypothesis fun later told => undecided later (List.mem_cons_of_mem _ told)

/-- The exchange is waiting as long as nothing has decided the race, and receiving after the head
    that has decided it. -/
theorem run_waiting_iff {events : List NetEvent} {reached : Phase} :
    (goesOn step).run .waiting events = some reached ↔
      ((∀ event ∈ events, event.decidesRace = false) ∧ reached = .waiting) ∨
        ∃ early status headers body, events = early ++ .head status headers :: body ∧
          (∀ event ∈ early, event.decidesRace = false) ∧ (∀ event ∈ body, event.endsBody = false) ∧
          reached = .receiving ⟨status, headers⟩ (chunksAfter .empty body) := by
  constructor
  · intro ran
    cases decided : events.find? NetEvent.decidesRace with
    | none =>
      have undecided : ∀ event ∈ events, event.decidesRace = false := by
        simpa using List.find?_eq_none.mp decided
      rw [run_of_undecided undecided] at ran
      cases ran
      exact .inl ⟨undecided, rfl⟩
    | some decisive =>
      obtain ⟨decides, early, body, rfl, before⟩ := List.find?_eq_some_iff_append.mp decided
      have undecided : ∀ event ∈ early, event.decidesRace = false := by simpa using before
      rw [Machine.run_append, run_of_undecided undecided, Option.bind_some, Machine.run_cons] at ran
      cases decisive with
      | head status headers =>
        obtain ⟨unended, rfl⟩ := run_receiving_iff.mp ran
        exact .inr ⟨early, status, headers, body, rfl, undecided, unended, rfl⟩
      | connectionFailed | timerExpired | timerFailed => cases ran
      | chunk _ | bodyComplete | bodyFailed => cases decides
  · rintro (⟨undecided, rfl⟩ | ⟨early, status, headers, body, rfl, undecided, unended, rfl⟩)
    · exact run_of_undecided undecided
    · rw [Machine.run_append, run_of_undecided undecided, Option.bind_some, Machine.run_cons]
      exact run_receiving_iff.mpr ⟨unended, rfl⟩

end Phase

/-- The event fails the race: the connection, or the timer in any way. -/
def NetEvent.failsRace : NetEvent → Bool
  | .connectionFailed | .timerExpired | .timerFailed => true
  | .head _ _ | .chunk _ | .bodyComplete | .bodyFailed => false

/-- The race is lost with the last event of the list: nothing has decided it before. -/
def LosesRace (history : List NetEvent) : Prop :=
  ∃ early event, history = early ++ [event] ∧ (∀ told ∈ early, told.decidesRace = false) ∧
    event.failsRace = true

/-- The list ends with the body of a response complete or broken off: a head that nothing had
    decided before, and no end of the body up to the last event. -/
def EndsBody (history : List NetEvent) (status : StatusCode) (headers : HeaderMap) (body : Bytes)
    (last : NetEvent) : Prop :=
  ∃ early between, history = early ++ .head status headers :: (between ++ [last]) ∧
    (∀ told ∈ early, told.decidesRace = false) ∧ (∀ told ∈ between, told.endsBody = false) ∧
    body = chunksAfter .empty between

namespace Phase

theorem step_waiting_iff {event : NetEvent} {ended : Except RequestError HttpResult} :
    step .waiting event = .inr ended ↔ event.failsRace = true ∧ ended = .error .timeout := by
  cases event <;> simp [step, NetEvent.failsRace, eq_comm]

theorem step_receiving_iff {head : ResponseHead} {received : Bytes} {event : NetEvent}
    {ended : Except RequestError HttpResult} :
    step (.receiving head received) event = .inr ended ↔
      (event = .bodyComplete ∧ ended = .ok ⟨head.status, received, head.headers⟩) ∨
        ((event = .bodyFailed ∨ event = .connectionFailed) ∧ ended = .error .connection) := by
  cases event <;> simp [step, eq_comm]

end Phase

/-- What the events up to the deciding one come to. -/
def OutcomeOf (told : List NetEvent) (ended : Except RequestError HttpResult) : Prop :=
  (LosesRace told ∧ ended = .error .timeout) ∨
    (∃ status headers body, EndsBody told status headers body .bodyComplete ∧
      ended = .ok ⟨status, body, headers⟩) ∨
    (∃ status headers body last, EndsBody told status headers body last ∧
      (last = .bodyFailed ∨ last = .connectionFailed) ∧ ended = .error .connection)

theorem outcomeOf_iff {told : List NetEvent} {ended : Except RequestError HttpResult} :
    OutcomeOf told ended ↔ ∃ before event reached, told = before ++ [event] ∧
      (goesOn Phase.step).run .waiting before = some reached ∧ reached.step event = .inr ended := by
  constructor
  · rintro (⟨⟨early, event, rfl, undecided, fails⟩, rfl⟩ |
      ⟨status, headers, body, ⟨early, between, rfl, undecided, unended, rfl⟩, rfl⟩ |
      ⟨status, headers, body, last, ⟨early, between, rfl, undecided, unended, rfl⟩, broken, rfl⟩)
    · exact ⟨early, event, .waiting, rfl, Phase.run_of_undecided undecided,
        Phase.step_waiting_iff.mpr ⟨fails, rfl⟩⟩
    · have ran := Phase.run_waiting_iff.mpr (.inr ⟨early, status, headers, between, rfl, undecided, unended, rfl⟩)
      exact ⟨_, _, _, by rw [List.append_assoc, List.cons_append], ran, rfl⟩
    · have ran := Phase.run_waiting_iff.mpr (.inr ⟨early, status, headers, between, rfl, undecided, unended, rfl⟩)
      exact ⟨_, _, _, by rw [List.append_assoc, List.cons_append], ran,
        Phase.step_receiving_iff.mpr (.inr ⟨broken, rfl⟩)⟩
  · rintro ⟨before, event, reached, rfl, ran, ends⟩
    rcases Phase.run_waiting_iff.mp ran with
      ⟨undecided, rfl⟩ | ⟨early, status, headers, between, rfl, undecided, unended, rfl⟩
    · obtain ⟨fails, rfl⟩ := Phase.step_waiting_iff.mp ends
      exact .inl ⟨⟨before, event, rfl, undecided, fails⟩, rfl⟩
    · have body : ∀ last, EndsBody ((early ++ .head status headers :: between) ++ [last]) status headers
          (chunksAfter .empty between) last := fun last =>
        ⟨early, between, by rw [List.append_assoc, List.cons_append], undecided, unended, rfl⟩
      rcases Phase.step_receiving_iff.mp ends with ⟨rfl, rfl⟩ | ⟨broken, rfl⟩
      · exact .inr (.inl ⟨_, _, _, body _, rfl⟩)
      · exact .inr (.inr ⟨_, _, _, _, body _, broken, rfl⟩)

/-- The future of a request steps as the automaton does, and its outcomes are these: a lost
    race, with whatever loses it, is a timeout; a response is complete with the chunks between
    its head and its end, whatever the timer does meanwhile; a body that breaks off is a failed
    connection.  It resolves with the event that decides. -/
theorem exchange_outcomes (history : List NetEvent) :
    exchange.resolve history = (scan Phase.step .waiting).resolve history ∧
      ∀ ended n, exchange.resolve history = some (ended, n) ↔
        n ≤ history.length ∧ OutcomeOf (history.take n) ended := by
  refine ⟨Phase.exchange_eq_scan history, fun ended n => ?_⟩
  rw [Phase.exchange_eq_scan, scan_eq_some_iff_take, outcomeOf_iff]

/-! ## Networks and timers on their own -/

/-- The timer has come to its end, whatever the network has done. -/
def timerOver (told : List NetEvent) : Bool :=
  told.any fun
    | .timerExpired | .timerFailed => true
    | _ => false

/-- The network has brought a response up to the end of its body or has failed, whatever the timer
    has done. -/
def networkOver : List NetEvent → Bool
  | .connectionFailed :: _ => true
  | .head _ _ :: rest => rest.any NetEvent.endsBody
  | _ :: rest => networkOver rest
  | [] => false

/-- The timer has come to its end between the head of a response and the end of its body, and the
    body has not ended yet. -/
def timerLate : List NetEvent → Bool
  | .head _ _ :: rest => timerOver rest && !rest.any NetEvent.endsBody
  | .connectionFailed :: _ | .timerExpired :: _ | .timerFailed :: _ => false
  | .chunk _ :: rest | .bodyComplete :: rest | .bodyFailed :: rest => timerLate rest
  | [] => false

theorem timerOver_of_late {told : List NetEvent} (late : timerLate told = true) : timerOver told = true := by
  induction told with
  | nil => cases late
  | cons event told inductionHypothesis =>
    cases event with
    | head status headers => exact (Bool.and_eq_true_iff.mp late).1
    | connectionFailed | timerExpired | timerFailed => cases late
    | chunk bytes => exact inductionHypothesis late
    | bodyComplete => exact inductionHypothesis late
    | bodyFailed => exact inductionHypothesis late

/-- A connection that has failed ends the exchange, whatever else happens. -/
theorem networkOver_of_failed {told : List NetEvent} (failed : .connectionFailed ∈ told) :
    networkOver told = true ∧ timerLate told = false := by
  induction told with
  | nil => cases failed
  | cons event told inductionHypothesis =>
    rcases List.mem_cons.mp failed with rfl | later
    · exact ⟨rfl, rfl⟩
    · cases event with
      | connectionFailed => exact ⟨rfl, rfl⟩
      | head status headers =>
        have ends : told.any NetEvent.endsBody = true := List.any_eq_true.mpr ⟨_, later, rfl⟩
        exact ⟨ends, by rw [timerLate, ends, Bool.not_true, Bool.and_false]⟩
      | timerExpired => exact ⟨(inductionHypothesis later).1, rfl⟩
      | timerFailed => exact ⟨(inductionHypothesis later).1, rfl⟩
      | chunk bytes => exact inductionHypothesis later
      | bodyComplete => exact inductionHypothesis later
      | bodyFailed => exact inductionHypothesis later

theorem isSome_later {α : Type} (resolved : Option (α × Nat)) : (later resolved).isSome = resolved.isSome := by
  cases resolved <;> rfl

theorem isSome_resolve_receiving (head : ResponseHead) (received : Bytes) (told : List NetEvent) :
    ((scan Phase.step (.receiving head received)).resolve told).isSome = told.any NetEvent.endsBody := by
  induction told generalizing received with
  | nil => rfl
  | cons event told inductionHypothesis =>
    cases event with
    | chunk bytes => rw [stepsTo_scan rfl told, isSome_later, inductionHypothesis]; rfl
    | head status headers => rw [stepsTo_scan rfl told, isSome_later, inductionHypothesis]; rfl
    | timerExpired => rw [stepsTo_scan rfl told, isSome_later, inductionHypothesis]; rfl
    | timerFailed => rw [stepsTo_scan rfl told, isSome_later, inductionHypothesis]; rfl
    | bodyComplete => rw [endsWith_scan rfl told]; rfl
    | bodyFailed => rw [endsWith_scan rfl told]; rfl
    | connectionFailed => rw [endsWith_scan rfl told]; rfl

/-- The exchange is over when the network or the timer is, but for a timer that comes late. -/
theorem isSome_resolve_exchange (told : List NetEvent) :
    (exchange.resolve told).isSome = ((networkOver told || timerOver told) && !timerLate told) := by
  rw [Phase.exchange_eq_scan]
  induction told with
  | nil => rfl
  | cons event told inductionHypothesis =>
    cases event with
    | head status headers =>
      rw [stepsTo_scan rfl told, isSome_later, isSome_resolve_receiving]
      show told.any NetEvent.endsBody =
        ((told.any NetEvent.endsBody || timerOver told) && !(timerOver told && !told.any NetEvent.endsBody))
      cases told.any NetEvent.endsBody <;> cases timerOver told <;> rfl
    | connectionFailed => rw [endsWith_scan rfl told]; rfl
    | timerExpired => rw [endsWith_scan rfl told]; simp [timerOver, timerLate]
    | timerFailed => rw [endsWith_scan rfl told]; simp [timerOver, timerLate]
    | chunk bytes => rw [stepsTo_scan rfl told, isSome_later, inductionHypothesis]; rfl
    | bodyComplete => rw [stepsTo_scan rfl told, isSome_later, inductionHypothesis]; rfl
    | bodyFailed => rw [stepsTo_scan rfl told, isSome_later, inductionHypothesis]; rfl

theorem isSome_outcome_exchange (polls : List (Option NetEvent)) :
    (exchange.outcome polls).isSome = ((networkOver polls.reduceOption || timerOver polls.reduceOption) &&
      !timerLate polls.reduceOption) := by
  rw [← isSome_resolve_exchange]
  cases polls with
  | nil => exact (congrArg Option.isSome (Phase.live_rest .waiting)).symm
  | cons poll polls => rw [Future.outcome, Option.isSome_map]

end XorcNotifications.HttpRequester
