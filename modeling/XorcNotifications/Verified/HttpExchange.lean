import XorcNotifications.Services

/-!
# The race between an exchange and its timer

`Requester::request` lets the timer race with the head of the response and rewrites every
error of that race to a timeout.  What the future does is said here by the first thing that
happens in the race: the head, a failed connection or the timer.
-/

namespace XorcNotifications.HttpRequester

open Futures Requester HttpRequestHandler

variable {history : List NetEvent}

/-! ## The exchange without its timer -/

/-- How the exchange ends if nobody times it: with the whole answer, or with a failure of
    the connection before the head or after it. -/
def untimed : Future NetEvent (Except Unit HttpResult) :=
  clientRequest.andThen fun response =>
    concat2.mapOk fun chunk => ⟨response.status, chunk, response.headers⟩

/-! ## Who is first -/

def isTimer : NetEvent → Bool
  | .timerExpired | .timerFailed => true
  | _ => false

/-- The `n`-th event decides, and it is one of the timer or not. -/
def DecidedBy (history : List NetEvent) (timer : Bool) (n : Nat) : Prop :=
  ∃ i event, n = i + 1 ∧ history[i]? = some event ∧ isTimer event = timer

theorem ne_of_decidedBy {k n : Nat} (network : DecidedBy history false k)
    (timer : DecidedBy history true n) : k ≠ n := by
  obtain ⟨i, event, rfl, position, isNetwork⟩ := network
  obtain ⟨j, event', rfl, position', isTimer'⟩ := timer
  intro same
  cases same
  rw [position, Option.some.injEq] at position'
  rw [← position', isNetwork] at isTimer'
  cases isTimer'

theorem decidedBy_sleep {timer : Except Unit Unit} {n : Nat}
    (resolved : sleep.resolve history = some (timer, n)) : DecidedBy history true n := by
  obtain ⟨i, event, rfl, position, picked⟩ := Future.exists_event_of_first resolved
  refine ⟨i, event, rfl, position, ?_⟩
  cases event with
  | timerExpired => rfl
  | timerFailed => rfl
  | _ => cases picked

theorem decidedBy_clientRequest {head : Except Unit ResponseHead} {k : Nat}
    (resolved : clientRequest.resolve history = some (head, k)) : DecidedBy history false k := by
  obtain ⟨i, event, rfl, position, picked⟩ := Future.exists_event_of_first resolved
  refine ⟨i, event, rfl, position, ?_⟩
  cases event with
  | timerExpired => cases picked
  | timerFailed => cases picked
  | _ => rfl

theorem decidedBy_concat2 {body : Except Unit Bytes} {l : Nat}
    (resolved : concat2.resolve history = some (body, l)) : DecidedBy history false l := by
  obtain ⟨i, event, received, rfl, position, stepped⟩ := Future.exists_event_of_scan resolved
  refine ⟨i, event, rfl, position, ?_⟩
  cases event with
  | timerExpired => cases stepped
  | timerFailed => cases stepped
  | _ => rfl

/-- After the head, the body decides. -/
theorem untimed_of_head {response : ResponseHead} {k : Nat}
    (head : clientRequest.resolve history = some (.ok response, k)) :
    untimed.resolve history = (concat2.resolve (history.drop k)).map fun ended =>
      (ended.1.map fun chunk => ⟨response.status, chunk, response.headers⟩, k + ended.2) := by
  rw [untimed, Future.resolve_andThen_ok head]
  simp only [Future.resolve_mapOk, Option.map_map]
  rfl

theorem untimed_of_failure {k : Nat}
    (failed : clientRequest.resolve history = some (.error (), k)) :
    untimed.resolve history = some (.error (), k) :=
  Future.resolve_andThen_error failed _

/-- The exchange ends with its head or later. -/
theorem untimed_cases {ended : Except Unit HttpResult} {m : Nat}
    (resolved : untimed.resolve history = some (ended, m)) :
    (clientRequest.resolve history = some (.error (), m) ∧ ended = .error ()) ∨
      ∃ response k body l, clientRequest.resolve history = some (.ok response, k) ∧
        concat2.resolve (history.drop k) = some (body, l) ∧ m = k + l ∧
        ended = body.map fun chunk => ⟨response.status, chunk, response.headers⟩ := by
  obtain ⟨head, k, won⟩ := Future.exists_of_resolve_andThen resolved
  cases head with
  | error e =>
    rw [untimed_of_failure won, Option.some.injEq, Prod.mk.injEq] at resolved
    obtain ⟨rfl, rfl⟩ := resolved
    exact .inl ⟨won, rfl⟩
  | ok response =>
    rw [untimed_of_head won] at resolved
    simp only [Option.map_eq_some_iff, Prod.mk.injEq, Prod.exists] at resolved
    obtain ⟨body, l, received, rfl, rfl⟩ := resolved
    exact .inr ⟨response, k, body, l, won, received, rfl, rfl⟩

theorem decidedBy_untimed {ended : Except Unit HttpResult} {m : Nat}
    (resolved : untimed.resolve history = some (ended, m)) : DecidedBy history false m := by
  rcases untimed_cases resolved with ⟨failed, -⟩ | ⟨response, k, body, l, -, received, rfl, -⟩
  · exact decidedBy_clientRequest failed
  · obtain ⟨i, event, rfl, position, network⟩ := decidedBy_concat2 received
    rw [List.getElem?_drop] at position
    exact ⟨k + i, event, rfl, position, network⟩

theorem untimed_after {n : Nat} (after : clientRequest.After history n) : untimed.After history n :=
  after.andThen _

/-! ## What the future does -/

theorem timeout_of_sleep {timer : Except Unit Unit} {n : Nat}
    (resolved : sleep.resolve history = some (timer, n)) :
    timeout.resolve history = some (.error .timeout, n) := by
  rw [timeout, Future.resolve_bind resolved]
  rfl

theorem timeout_after {n : Nat} (after : sleep.After history n) : timeout.After history n :=
  after.bind _

/-- The error of the race is a timeout, whatever it was. -/
theorem exchange_of_error {error : RequestError} {n : Nat}
    (raced : ((clientRequest.mapErr fun _ => RequestError.connection).select timeout).resolve history =
      some (.error error, n)) : exchange.resolve history = some (.error .timeout, n) := by
  have rewritten : (((clientRequest.mapErr fun _ => RequestError.connection).select timeout).mapErr
      fun _ => RequestError.timeout).resolve history = some (.error .timeout, n) := by
    rw [Future.resolve_mapErr, raced]
    rfl
  exact Future.resolve_andThen_error rewritten _

theorem exchange_of_timer {timer : Except Unit Unit} {n : Nat}
    (resolved : sleep.resolve history = some (timer, n)) (after : clientRequest.After history n) :
    exchange.resolve history = some (.error .timeout, n) :=
  exchange_of_error (Future.resolve_select_right (timeout_of_sleep resolved) (after.map _))

theorem exchange_of_failure {k : Nat} (failed : clientRequest.resolve history = some (.error (), k))
    (after : sleep.After history k) : exchange.resolve history = some (.error .timeout, k) := by
  have mapped : (clientRequest.mapErr fun _ => RequestError.connection).resolve history =
      some (.error .connection, k) := by
    rw [Future.resolve_mapErr, failed]
    rfl
  exact exchange_of_error (Future.resolve_select_left mapped (timeout_after after))

/-- Once the head has won the race, the timer has no say. -/
theorem exchange_of_head {response : ResponseHead} {k : Nat}
    (head : clientRequest.resolve history = some (.ok response, k)) (after : sleep.After history k) :
    exchange.resolve history = (untimed.mapErr fun _ => RequestError.connection).resolve history := by
  have mapped : (clientRequest.mapErr fun _ => RequestError.connection).resolve history =
      some (.ok response, k) := by
    rw [Future.resolve_mapErr, head]
    rfl
  have won : (((clientRequest.mapErr fun _ => RequestError.connection).select timeout).mapErr
      fun _ => RequestError.timeout).resolve history = some (.ok response, k) := by
    rw [Future.resolve_mapErr, Future.resolve_select_left mapped (timeout_after after)]
    rfl
  rw [exchange, Future.resolve_andThen_ok won, Future.resolve_mapErr, untimed_of_head head]
  simp only [Future.resolve_mapOk, Future.resolve_mapErr, Option.map_map]
  congr 1
  funext ended
  obtain ⟨body, l⟩ := ended
  cases body <;> rfl

theorem exchange_after {n : Nat} (client : clientRequest.After history n)
    (timer : sleep.After history n) : exchange.After history n := by
  have race := (client.map (Except.mapError fun _ => RequestError.connection)).select (timeout_after timer)
  exact (race.map (Except.mapError fun _ => RequestError.timeout)).andThen _

/-- After the head no error of the exchange is a timeout. -/
theorem not_timeout_of_head {response : ResponseHead} {k m : Nat}
    (head : clientRequest.resolve history = some (.ok response, k)) (after : sleep.After history k) :
    exchange.resolve history ≠ some (.error .timeout, m) := by
  intro ended
  rw [exchange_of_head head after] at ended
  obtain ⟨whole, -, same⟩ := Future.exists_of_resolve_map ended
  cases whole <;> cases same

theorem exchange_of_pending (client : clientRequest.resolve history = none)
    (timer : sleep.resolve history = none) : exchange.resolve history = none := by
  cases resolved : exchange.resolve history with
  | none => rfl
  | some ended =>
    have after := exchange_after (.of_pending client ended.2) (.of_pending timer ended.2)
    exact absurd (after _ _ resolved) (Nat.lt_irrefl _)

/-- The head, a failure or the timer is first, or nothing has happened yet. -/
theorem race_cases (history : List NetEvent) :
    (∃ response k, clientRequest.resolve history = some (.ok response, k) ∧ sleep.After history k) ∨
      (∃ k, clientRequest.resolve history = some (.error (), k) ∧ sleep.After history k) ∨
      (∃ timer n, sleep.resolve history = some (timer, n) ∧ clientRequest.After history n) ∨
      (clientRequest.resolve history = none ∧ sleep.resolve history = none) := by
  cases client : clientRequest.resolve history with
  | none =>
    cases timed : sleep.resolve history with
    | none => exact .inr (.inr (.inr ⟨rfl, rfl⟩))
    | some timer =>
      exact .inr (.inr (.inl ⟨timer.1, timer.2, rfl, Future.After.of_pending client timer.2⟩))
  | some won =>
    obtain ⟨head, k⟩ := won
    by_cases first : sleep.After history k
    · cases head with
      | ok response => exact .inl ⟨response, k, rfl, first⟩
      | error e => exact .inr (.inl ⟨k, rfl, first⟩)
    · simp only [Future.After, not_forall] at first
      obtain ⟨timer, n, timed, early⟩ := first
      have different := ne_of_decidedBy (decidedBy_clientRequest client) (decidedBy_sleep timed)
      refine .inr (.inr (.inl ⟨timer, n, timed, ?_⟩))
      intro head' k' client'
      rw [client, Option.some.injEq, Prod.mk.injEq] at client'
      omega

/-! ## What is answered -/

section Answers

variable (topic : String) (key : Option Bytes) (event : HttpRequest)

/-- The task of the request has settled, and its effect publishes this connection error. -/
def AnswersError (history : List NetEvent) (error : SocketError) : Prop :=
  ∃ effect n, (exchange.map (onResult topic key event)).resolve history = some (effect, n) ∧
    ∀ w, ∃ response, (effect w).published = w.published ++ [⟨topic, key, .httpResponse response⟩] ∧
      response.payload = none ∧ response.connectionError = some error

theorem answers_timeout {n : Nat} (ended : exchange.resolve history = some (.error .timeout, n)) :
    AnswersError topic key event history .timeout := by
  refine ⟨onResult topic key event (.error .timeout), n, ?_, fun w => ⟨_, rfl, rfl, rfl⟩⟩
  rw [Future.resolve_map, ended, Option.map_some]

theorem answers_connection {n : Nat} (ended : exchange.resolve history = some (.error .connection, n)) :
    AnswersError topic key event history .connectionError := by
  refine ⟨onResult topic key event (.error .connection), n, ?_, fun w => ⟨_, rfl, rfl, rfl⟩⟩
  rw [Future.resolve_map, ended, Option.map_some]

/-! ## The timeout as a bound -/

/-- An exchange that is not over when its timer expires ends in a timeout, and one that
    gives a result was over before. -/
structure TimeoutBounds (history : List NetEvent) : Prop where
  expired : ∀ n, sleep.resolve history = some (.ok (), n) → untimed.After history n →
    (∃ m, exchange.resolve history = some (.error .timeout, m)) ∧
      AnswersError topic key event history .timeout
  complete : ∀ result m, exchange.resolve history = some (.ok result, m) →
    untimed.resolve history = some (.ok result, m) ∧
      ∀ n, sleep.resolve history = some (.ok (), n) → m < n

/-- The timer expires after the head and before the end of the body. -/
def ExpiresInBody (history : List NetEvent) : Prop :=
  ∃ response k n, clientRequest.resolve history = some (.ok response, k) ∧
    sleep.resolve history = some (.ok (), n) ∧ k < n ∧ untimed.After history n

theorem expired_unless_in_body {n : Nat} (inTime : ¬ ExpiresInBody history)
    (timed : sleep.resolve history = some (.ok (), n)) (pending : untimed.After history n) :
    exchange.resolve history = some (.error .timeout, n) := by
  refine exchange_of_timer timed fun head k client => ?_
  cases head with
  | error e => exact pending _ k (untimed_of_failure client)
  | ok response =>
    have different := ne_of_decidedBy (decidedBy_clientRequest client) (decidedBy_sleep timed)
    by_contra early
    exact inTime ⟨response, k, n, client, timed, by omega, pending⟩

theorem complete_unless_in_body {result : HttpResult} {m : Nat} (inTime : ¬ ExpiresInBody history)
    (ended : exchange.resolve history = some (.ok result, m)) :
    untimed.resolve history = some (.ok result, m) ∧
      ∀ n, sleep.resolve history = some (.ok (), n) → m < n := by
  rcases race_cases history with ⟨response, k, head, first⟩ | ⟨k, failed, first⟩ |
    ⟨timer, n, timed, first⟩ | ⟨client, timed⟩
  · rw [exchange_of_head head first] at ended
    obtain ⟨whole, settled, same⟩ := Future.exists_of_resolve_map ended
    cases whole with
    | error e => cases same
    | ok value =>
      cases same
      refine ⟨settled, fun n timed => ?_⟩
      have different := ne_of_decidedBy (decidedBy_untimed settled) (decidedBy_sleep timed)
      by_contra late
      refine inTime ⟨response, k, n, head, timed, first _ n timed, ?_⟩
      intro ended' m' settled'
      rw [settled, Option.some.injEq, Prod.mk.injEq] at settled'
      omega
  · rw [exchange_of_failure failed first] at ended
    cases ended
  · rw [exchange_of_timer timed first] at ended
    cases ended
  · rw [exchange_of_pending client timed] at ended
    cases ended

/-- The timeout bounds the exchange exactly unless it expires in the body. -/
theorem timeout_bounds_iff (history : List NetEvent) :
    TimeoutBounds topic key event history ↔ ¬ ExpiresInBody history := by
  constructor
  · intro bounds inBody
    obtain ⟨response, k, n, head, timed, later, pending⟩ := inBody
    obtain ⟨⟨m, ended⟩, -⟩ := bounds.expired n timed pending
    have first : sleep.After history k := by
      intro timer n' timed'
      rw [timed, Option.some.injEq, Prod.mk.injEq] at timed'
      omega
    exact not_timeout_of_head head first ended
  · intro inTime
    refine ⟨fun n timed pending => ?_, fun result m => complete_unless_in_body inTime⟩
    have ended := expired_unless_in_body inTime timed pending
    exact ⟨⟨n, ended⟩, answers_timeout topic key event ended⟩

/-! ## The names of failures -/

/-- A timeout is only reported when the timer has expired first, and a failure of the
    connection that comes before is reported as what it is. -/
structure FailuresNamed (history : List NetEvent) : Prop where
  timeout : ∀ m, exchange.resolve history = some (.error .timeout, m) →
    ∃ n, sleep.resolve history = some (.ok (), n) ∧ untimed.After history n
  connection : ∀ m, untimed.resolve history = some (.error (), m) →
    (∀ n, sleep.resolve history = some (.ok (), n) → m < n) →
    exchange.resolve history = some (.error .connection, m) ∧
      AnswersError topic key event history .connectionError

/-- A failure, of the connection or of the timer, is the first thing in the race. -/
def FailsFirst (history : List NetEvent) : Prop :=
  (∃ k, clientRequest.resolve history = some (.error (), k) ∧ sleep.After history k) ∨
    ∃ n, sleep.resolve history = some (.error (), n) ∧ clientRequest.After history n

theorem timeout_unless_failed_first {m : Nat} (named : ¬ FailsFirst history)
    (ended : exchange.resolve history = some (.error .timeout, m)) :
    ∃ n, sleep.resolve history = some (.ok (), n) ∧ untimed.After history n := by
  rcases race_cases history with ⟨response, k, head, first⟩ | ⟨k, failed, first⟩ |
    ⟨timer, n, timed, first⟩ | ⟨client, timed⟩
  · exact absurd ended (not_timeout_of_head head first)
  · exact absurd (.inl ⟨k, failed, first⟩) named
  · cases timer with
    | error e => exact absurd (.inr ⟨n, timed, first⟩) named
    | ok expired => exact ⟨n, timed, untimed_after first⟩
  · rw [exchange_of_pending client timed] at ended
    cases ended

theorem connection_unless_failed_first {m : Nat} (named : ¬ FailsFirst history)
    (failed : untimed.resolve history = some (.error (), m))
    (before : ∀ n, sleep.resolve history = some (.ok (), n) → m < n) :
    exchange.resolve history = some (.error .connection, m) := by
  rcases race_cases history with ⟨response, k, head, first⟩ | ⟨k, client, first⟩ |
    ⟨timer, n, timed, first⟩ | ⟨client, timed⟩
  · rw [exchange_of_head head first, Future.resolve_mapErr, failed]
    rfl
  · exact absurd (.inl ⟨k, client, first⟩) named
  · -- The timer is first, so it has not expired but failed.
    have after := untimed_after first _ m failed
    cases timer with
    | error e => exact absurd (.inr ⟨n, timed, first⟩) named
    | ok expired =>
      have early := before n timed
      omega
  · have pending := untimed_after (.of_pending client m)
    exact absurd (pending _ m failed) (Nat.lt_irrefl m)

/-- Failures are named rightly exactly unless one of them comes first in the race. -/
theorem failures_named_iff (history : List NetEvent) :
    FailuresNamed topic key event history ↔ ¬ FailsFirst history := by
  constructor
  · intro right failsFirst
    rcases failsFirst with ⟨k, client, first⟩ | ⟨n, timed, first⟩
    · -- The failed connection is a timeout, and no timer has expired before it.
      obtain ⟨n, timed, pending⟩ := right.timeout k (exchange_of_failure client first)
      have early := first _ n timed
      have late := pending _ k (untimed_of_failure client)
      omega
    · obtain ⟨n', timed', -⟩ := right.timeout n (exchange_of_timer timed first)
      rw [timed] at timed'
      cases timed'
  · intro named
    refine ⟨fun m => timeout_unless_failed_first named, fun m failed before => ?_⟩
    have ended := connection_unless_failed_first named failed before
    exact ⟨ended, answers_connection topic key event ended⟩

end Answers

/-! ## Exchanges that are misjudged -/

def headersOnly : NetEvent := .head ⟨200⟩ ⟨[], List.nodup_nil⟩

/-- The head comes quickly and the body slowly. -/
theorem slow_body_unbounded :
    ¬ TimeoutBounds "responses" none sampleHttp [headersOnly, .timerExpired, .bodyComplete] := by
  intro bounds
  obtain ⟨-, inTime⟩ := bounds.complete ⟨⟨200⟩, .empty, ⟨[], List.nodup_nil⟩⟩ 3 rfl
  exact absurd (inTime 2 rfl) (by decide)

theorem refused_connection_misnamed :
    ¬ FailuresNamed "responses" none sampleHttp [.connectionFailed] := by
  intro named
  obtain ⟨n, timed, -⟩ := named.timeout 1 rfl
  cases timed

end XorcNotifications.HttpRequester
