import XorcNotifications.Verified.ExchangeAutomaton
import XorcNotifications.Verified.HandlerEffects

/-!
# One answer per message

What a message is owed, and what that answer waits for, can be said without running the
service: a push notification waits for the provider call of its tenant, an HTTP request
for its exchange, a request that cannot be built for nothing.  The receipts published in a
run are then those of the messages whose wait is over, each once.  Whether that is what
the network and the timer of an HTTP request call for is a question of its own.
-/

namespace XorcNotifications

open Futures Executors KeyedTables RequestConsumer World

/-! ## What a message asks for -/

section Messages

variable (pb : Protobuf)

/-- The push notification that a message asks to be sent, if the service accepts it. -/
def acceptedPush (accepts : PushNotification → Bool) (msg : BorrowedMessage) :
    Option PushNotification :=
  msg.payload.bind fun payload =>
    (pb.parseRequestWrapper payload).bind fun decoder =>
      if decoder.getHeader.getFieldType = "notification.PushNotification" then
        (pb.parsePushNotification payload).filter accepts
      else none

def decodedHttp (msg : BorrowedMessage) : Option HttpRequest :=
  msg.payload.bind fun payload =>
    (pb.parseRequestWrapper payload).bind fun decoder =>
      if decoder.getHeader.getFieldType = "http.HttpRequest" then pb.parseHttpRequest payload else none

variable (H : EventHandler)

/-- The closure of the request loop passes on exactly what the message asks for. -/
theorem processRequest_cases (msg : BorrowedMessage) :
    (∃ event, acceptedPush pb H.accepts msg = some event ∧ decodedHttp pb msg = none ∧
        processRequest pb H msg = .notification msg.key event) ∨
      (∃ event, acceptedPush pb H.accepts msg = none ∧ decodedHttp pb msg = some event ∧
        processRequest pb H msg = .http msg.key event) ∨
      (∃ record, acceptedPush pb H.accepts msg = none ∧ decodedHttp pb msg = none ∧
        processRequest pb H msg = .ignored record) := by
  obtain ⟨key, payload⟩ := msg
  -- One case for each way through the two stages of decoding.
  cases payload with
  | none => exact .inr (.inr ⟨_, rfl, rfl, rfl⟩)
  | some payload =>
    cases wrapper : pb.parseRequestWrapper payload with
    | none =>
      refine .inr (.inr ⟨some ⟨.error, "Invalid RPC request", []⟩, ?_, ?_, ?_⟩) <;>
        simp [acceptedPush, decodedHttp, processRequest, wrapper]
    | some decoder =>
      by_cases push : decoder.getHeader.getFieldType = "notification.PushNotification"
      · have notHttp : decodedHttp pb ⟨key, some payload⟩ = none := by
          simp [decodedHttp, wrapper, push]
        cases parsed : pb.parsePushNotification payload with
        | none =>
          refine .inr (.inr ⟨some ⟨.error, "Error parsing a PushNotification event", []⟩, ?_, notHttp, ?_⟩) <;>
            simp [acceptedPush, processRequest, handlePush, wrapper, push, parsed]
        | some event =>
          cases accepted : H.accepts event with
          | true =>
            refine .inl ⟨event, ?_, notHttp, ?_⟩ <;>
              simp [acceptedPush, processRequest, handlePush, wrapper, push, parsed, accepted,
                Option.filter]
          | false =>
            refine .inr (.inr ⟨none, ?_, notHttp, ?_⟩) <;>
              simp [acceptedPush, processRequest, handlePush, wrapper, push, parsed, accepted,
                Option.filter]
      · have notPush : acceptedPush pb H.accepts ⟨key, some payload⟩ = none := by
          simp [acceptedPush, wrapper, push]
        by_cases http : decoder.getHeader.getFieldType = "http.HttpRequest"
        · cases parsed : pb.parseHttpRequest payload with
          | none =>
            refine .inr (.inr ⟨none, notPush, ?_, ?_⟩) <;>
              simp [decodedHttp, processRequest, RequestConsumer.handleHttp, wrapper, http, parsed]
          | some event =>
            refine .inr (.inl ⟨event, notPush, ?_, ?_⟩) <;>
              simp [decodedHttp, processRequest, RequestConsumer.handleHttp, wrapper, http, parsed]
        · refine .inr (.inr ⟨none, notPush, ?_, ?_⟩) <;>
            simp [decodedHttp, processRequest, wrapper, push, http]

end Messages

/-! ## What is owed, and when it is due -/

/-- The call at the provider that a push notification waits for.  There is none for an
    unknown tenant. -/
def PushService.providerCall (crates : Crates) : (service : PushService) →
    Table String (service.handler crates).Entry → PushNotification →
      Option (Future (service.handler crates).Event Unit)
  | .apns2, (notifiers : Apns2.ApnsHandler.Notifiers), event =>
    (notifiers.lookup event.universeId).map fun _ => Apns2.ApnsHandler.answer.map fun _ => ()
  | .fcm, (apiKeys : Fcm.FcmHandler.ApiKeys), event =>
    (apiKeys.lookup event.universeId).map fun _ => Fcm.FcmHandler.answer.map fun _ => ()
  | .webPush, (fcmApiKeys : WebPush.WebPushHandler.FcmApiKeys), event =>
    (fcmApiKeys.lookup event.universeId).map fun entity =>
      (WebPush.Notifier.answer crates.webPush event entity.fcmApiKey).map fun _ => ()

namespace Service

variable (crates : Crates)

/-- The receipt that a message is owed. -/
def owed : Service → BorrowedMessage → Option Receipt
  | .push service, msg =>
    (acceptedPush crates.protobuf (service.handler crates).accepts msg).map (pushReceipt msg.key)
  | .httpRequester, msg => (decodedHttp crates.protobuf msg).map (httpReceipt msg.key)

/-- What the answer to a message waits for. -/
def awaits : (service : Service) → Table String (service.handler crates).Entry →
    BorrowedMessage → Option (Future (service.handler crates).Event Unit)
  | .push service, tenants, msg =>
    (acceptedPush crates.protobuf (service.handler crates).accepts msg).bind
      (service.providerCall crates tenants)
  | .httpRequester, _, msg =>
    (decodedHttp crates.protobuf msg).bind fun event =>
      (HttpRequester.Requester.request crates.http event).map fun _ =>
        HttpRequester.Requester.exchange.map fun _ => ()

variable (service : Service)

def tenantsAfter (inputs : List (Input (service.handler crates))) :
    Table String (service.handler crates).Entry :=
  (handleRequests crates.protobuf (service.handler crates) inputs).session.tenants

/-- The receipt that is due for the input at position `i`: that of a message whose wait,
    which began with the tenants of its own moment, is over. -/
def due (inputs : List (Input (service.handler crates))) (i : Nat) : Option Receipt :=
  match inputs[i]? with
  | some (.item (.ok msg)) =>
    if completed (service.awaits crates (service.tenantsAfter crates (inputs.take i)) msg)
      (RequestConsumer.pollsOf inputs i)
    then service.owed crates msg
    else none
  | _ => none

theorem due_eq_some_iff (inputs : List (Input (service.handler crates))) (i : Nat) (receipt : Receipt) :
    service.due crates inputs i = some receipt ↔
      ∃ msg, inputs[i]? = some (.item (.ok msg)) ∧ service.owed crates msg = some receipt ∧
        completed (service.awaits crates (service.tenantsAfter crates (inputs.take i)) msg)
          (RequestConsumer.pollsOf inputs i) = true := by
  rw [due]
  split
  next msg atI =>
    simp only [atI, Option.ite_none_right_eq_some, Option.some.injEq, Input.item.injEq, Except.ok.injEq]
    constructor
    · intro isDue
      obtain ⟨isOver, owes⟩ := isDue
      exact ⟨msg, rfl, owes, isOver⟩
    · intro message
      obtain ⟨_, same, owes, isOver⟩ := message
      subst same
      exact ⟨isOver, owes⟩
  next other =>
    refine iff_of_false (fun none => nomatch none) ?_
    intro message
    obtain ⟨msg, atI, _⟩ := message
    exact other msg atI

end Service

/-! ## Every reaction adds what is owed, once -/

def amount (receipt : Option Receipt) : Multiset Receipt := receipt.elim 0 fun receipt => {receipt}

namespace PushService

variable (crates : Crates) (service : PushService)

theorem addsOnce_handleNotification (tenants : Table String (service.handler crates).Entry)
    (key : Option Bytes) (event : PushNotification) :
    AddsOnce receipts ((service.handler crates).handleNotification tenants key event)
      {pushReceipt key event} := by
  cases service with
  | apns2 => exact Apns2.addsOnce_handleNotification crates.apns2 crates.outputTopic tenants key event
  | fcm => exact Fcm.addsOnce_handleNotification crates.fcm crates.outputTopic tenants key event
  | webPush =>
    exact WebPush.addsOnce_handleNotification crates.webPush crates.outputTopic tenants key event

theorem addsOnce_handleHttp (key : Option Bytes) (event : HttpRequest) :
    AddsOnce receipts ((service.handler crates).handleHttp key event) 0 := by
  cases service <;> exact addsOnce_nothing fun w => (add_zero _).symm

theorem signal_handleNotification (tenants : Table String (service.handler crates).Entry)
    (key : Option Bytes) (event : PushNotification) :
    ((service.handler crates).handleNotification tenants key event).leaves.signal =
      service.providerCall crates tenants event := by
  cases service with
  | apns2 => exact Apns2.signal_handleNotification crates.apns2 crates.outputTopic tenants key event
  | fcm => exact Fcm.signal_handleNotification crates.fcm crates.outputTopic tenants key event
  | webPush =>
    exact WebPush.signal_handleNotification crates.webPush crates.outputTopic tenants key event

end PushService

namespace Service

variable (crates : Crates) (service : Service)

/-- A message adds the receipt it is owed once. -/
theorem addsOnce_processRequest (tenants : Table String (service.handler crates).Entry)
    (msg : BorrowedMessage) {r : Reaction (service.handler crates).Event _}
    (reacts : (processRequest crates.protobuf (service.handler crates) msg).toStep tenants = .react r) :
    AddsOnce receipts r (amount (service.owed crates msg)) := by
  obtain ⟨event, push, http, called⟩ | ⟨event, push, http, called⟩ | ⟨record, push, http, called⟩ :=
    processRequest_cases crates.protobuf (service.handler crates) msg
  · rw [called] at reacts
    cases reacts
    cases service with
    | push service =>
      rw [owed, push]
      exact service.addsOnce_handleNotification crates tenants msg.key event
    | httpRequester =>
      rw [owed, http]
      exact addsOnce_nothing fun w => (add_zero _).symm
  · rw [called] at reacts
    cases reacts
    cases service with
    | push service =>
      rw [owed, push]
      exact service.addsOnce_handleHttp crates msg.key event
    | httpRequester =>
      rw [owed, http]
      exact HttpRequester.addsOnce_handleHttp crates.http crates.outputTopic msg.key event
  · rw [called] at reacts
    cases reacts
    cases service with
    | push service =>
      rw [owed, push]
      exact addsOnce_nothing fun w => (add_zero _).symm
    | httpRequester =>
      rw [owed, http]
      exact addsOnce_nothing fun w => (add_zero _).symm

theorem signal_processRequest (tenants : Table String (service.handler crates).Entry)
    {msg : BorrowedMessage} {r : Reaction (service.handler crates).Event _}
    (reacts : (processRequest crates.protobuf (service.handler crates) msg).toStep tenants = .react r) :
    r.leaves.signal = service.awaits crates tenants msg := by
  obtain ⟨event, push, http, called⟩ | ⟨event, push, http, called⟩ | ⟨record, push, http, called⟩ :=
    processRequest_cases crates.protobuf (service.handler crates) msg
  · rw [called] at reacts
    cases reacts
    cases service with
    | push service =>
      rw [awaits, push]
      exact service.signal_handleNotification crates tenants msg.key event
    | httpRequester =>
      rw [awaits, http]
      rfl
  · rw [called] at reacts
    cases reacts
    cases service with
    | push service =>
      rw [awaits, push]
      cases service <;> rfl
    | httpRequester =>
      rw [awaits, http]
      exact HttpRequester.signal_handleHttp crates.http crates.outputTopic msg.key event
  · rw [called] at reacts
    cases reacts
    cases service with
    | push service =>
      rw [awaits, push]
      rfl
    | httpRequester =>
      rw [awaits, http]
      rfl

theorem processRequest_reacts (tenants : Table String (service.handler crates).Entry)
    (msg : BorrowedMessage) :
    ∃ r, (processRequest crates.protobuf (service.handler crates) msg).toStep tenants = .react r := by
  obtain ⟨event, -, -, called⟩ | ⟨event, -, -, called⟩ | ⟨record, -, -, called⟩ :=
    processRequest_cases crates.protobuf (service.handler crates) msg <;>
  · rw [called]
    exact ⟨_, rfl⟩

/-! ## Runs -/

/-- The steps that the inputs are to the executor. -/
def steps (inputs : List (Input (service.handler crates))) :
    List (Step (service.handler crates).Event (World (service.handler crates).Call)) :=
  (Session.start (service.handler crates)).trace
    (inputs.map (Input.toCall crates.protobuf (service.handler crates)))

theorem executor_handleRequests (inputs : List (Input (service.handler crates))) :
    (handleRequests crates.protobuf (service.handler crates) inputs).session.executor =
      (Executor.start World.init).run (service.steps crates inputs) := by
  rw [session_handleRequests, Session.executor_run]
  rfl

theorem getElem?_steps (inputs : List (Input (service.handler crates))) (i : Nat) :
    (service.steps crates inputs)[i]? = inputs[i]?.map fun input =>
      (input.toCall crates.protobuf (service.handler crates)).toStep
        (service.tenantsAfter crates (inputs.take i)) := by
  rw [steps, Session.getElem?_trace, List.getElem?_map, Option.map_map, tenantsAfter,
    session_handleRequests, List.map_take]
  rfl

def owedInput : Input (service.handler crates) → Option Receipt
  | .item (.ok msg) => service.owed crates msg
  | _ => none

theorem addsOnce_toCall (tenants : Table String (service.handler crates).Entry)
    {input : Input (service.handler crates)} {r : Reaction (service.handler crates).Event _}
    (reacts : (input.toCall crates.protobuf (service.handler crates)).toStep tenants = .react r) :
    AddsOnce receipts r (amount (service.owedInput crates input)) := by
  cases input with
  | item result =>
    cases result with
    | ok msg => exact service.addsOnce_processRequest crates tenants msg reacts
    | error e =>
      cases reacts
      exact addsOnce_nothing fun w => (add_zero _).symm
  | config clients id application => cases reacts
  | poll task event => cases reacts

/-- While the service runs, exactly the receipts that are due have been published. -/
theorem receipts_handleRequests {inputs : List (Input (service.handler crates))}
    (running : (handleRequests crates.protobuf (service.handler crates) inputs).session.executor.halted =
      false) :
    (handleRequests crates.protobuf (service.handler crates) inputs).session.world.receipts =
      (Multiset.range inputs.length).filterMap (service.due crates inputs) := by
  rw [executor_handleRequests] at running
  have calm := (halted_eq_false_iff _ _).mp running
  have adds : ∀ (i : Nat) r, (service.steps crates inputs)[i]? = some (Step.react r) →
      AddsOnce receipts r (amount (inputs[i]?.bind (service.owedInput crates))) := by
    intro i r position
    rw [getElem?_steps, Option.map_eq_some_iff] at position
    obtain ⟨input, atI, reacts⟩ := position
    rw [atI, Option.bind_some]
    exact service.addsOnce_toCall crates _ reacts
  have quiet : ∀ effect, Step.background effect ∈ service.steps crates inputs →
      ∀ w, receipts (effect w) = receipts w :=
    fun effect member w => receipts_of_published (service.unseen_background crates member w).published
  have account := ledger_once calm adds quiet World.init
  rw [Session.world, executor_handleRequests, account, ← sum_singletons, steps, Session.length_trace,
    List.length_map]
  refine (zero_add _).trans (Finset.sum_congr rfl fun i _ => ?_)
  -- What is left is to compare, input by input, what is over with what is due.
  cases atI : inputs[i]? with
  | none => simp [due, atI, amount]
  | some input =>
    have position := service.getElem?_steps crates inputs i
    rw [atI, Option.map_some] at position
    cases input with
    | item result =>
      cases result with
      | error e => simp [due, atI, amount, owedInput]
      | ok msg =>
        cases owes : service.owed crates msg with
        | none => simp [due, atI, amount, owedInput, owes]
        | some receipt =>
          -- Both sides ask whether the same future has an outcome after the same polls.
          obtain ⟨r, reacts⟩ := processRequest_reacts crates service _ msg
          rw [Input.toCall, reacts] at position
          have quietEnd := calm r (List.mem_of_getElem? position)
          rw [← steps, doneAt_eq_completed position quietEnd,
            service.signal_processRequest crates _ reacts, steps,
            HandlerCall.pollsOf_trace, RequestConsumer.pollsOf_map]
          simp only [due, atI, amount, owedInput, owes, Option.bind_some]
          split <;> rfl
    | config clients id application => simp [due, atI, amount, owedInput]
    | poll task event => simp [due, atI, amount, owedInput]

/-- The service runs on exactly as long as no input ends in a panic. -/
theorem running_iff (inputs : List (Input (service.handler crates))) :
    (handleRequests crates.protobuf (service.handler crates) inputs).session.executor.halted = false ↔
      ∀ input ∈ inputs,
        ¬ service.panics crates (input.toCall crates.protobuf (service.handler crates)) := by
  rw [executor_handleRequests, halted_eq_false_iff]
  constructor
  · intro calm input member panics
    obtain ⟨i, atI⟩ := List.mem_iff_getElem?.mp member
    have position := service.getElem?_steps crates inputs i
    rw [atI, Option.map_some] at position
    obtain ⟨r, reacts⟩ := service.reacts_of_panics crates _ panics
    rw [reacts] at position
    exact calm r (List.mem_of_getElem? position)
      ((service.leaves_eq_panic_iff crates _ reacts).mpr panics)
  · intro quiet r member panics
    obtain ⟨tenants, call, isCall, reacts⟩ := Session.mem_trace member
    obtain ⟨input, isInput, rfl⟩ := List.mem_map.mp isCall
    exact quiet input isInput ((service.leaves_eq_panic_iff crates tenants reacts.symm).mp panics)

end Service

/-! ## Push notifications -/

theorem PushService.running (crates : Crates) (service : PushService)
    (inputs : List (Input (service.handler crates))) :
    (handleRequests crates.protobuf (service.handler crates) inputs).session.executor.halted = false :=
  (Service.running_iff crates (.push service) inputs).mpr fun _ _ panics => panics

/-- In every run of a push service the published records are exactly one push result for
    every accepted notification that had no tenant or whose provider call has completed. -/
theorem push_answered_exactly_once (crates : Crates) (service : PushService)
    (inputs : List (Input (service.handler crates))) :
    (handleRequests crates.protobuf (service.handler crates) inputs).session.world.receipts =
      (Multiset.range inputs.length).filterMap (Service.due crates (.push service) inputs) ∧
    ∀ i receipt, Service.due crates (.push service) inputs i = some receipt ↔
      ∃ msg event, inputs[i]? = some (.item (.ok msg)) ∧
        acceptedPush crates.protobuf (service.handler crates).accepts msg = some event ∧
        receipt = .pushResult msg.key (some ⟨some "notification.PushResult", some event.getHeader⟩) ∧
        ∀ call, service.providerCall crates
            (Service.tenantsAfter crates (.push service) (inputs.take i)) event = some call →
          (call.outcome (RequestConsumer.pollsOf inputs i)).isSome := by
  refine ⟨Service.receipts_handleRequests crates (.push service) (service.running crates inputs), ?_⟩
  intro i receipt
  rw [Service.due_eq_some_iff]
  constructor
  · intro isDue
    obtain ⟨msg, atI, owes, isOver⟩ := isDue
    obtain ⟨event, push, rfl⟩ := Option.map_eq_some_iff.mp owes
    rw [Service.awaits, push, Option.bind_some, completed_iff] at isOver
    exact ⟨msg, event, atI, push, rfl, isOver⟩
  · intro answered
    obtain ⟨msg, event, atI, push, isReceipt, isOver⟩ := answered
    refine ⟨msg, atI, Option.map_eq_some_iff.mpr ⟨event, push, isReceipt.symm⟩, ?_⟩
    rw [Service.awaits, push, Option.bind_some, completed_iff]
    exact isOver

/-! ## HTTP requests -/

/-- Where one of two parts picks what the whole does, and the other one nothing. -/
theorem perm_filterMap_of_split {α β : Type} {part others whole : α → Option β} {l : List α}
    (split : ∀ a ∈ l, part a = whole a ∧ others a = none ∨ part a = none ∧ others a = whole a) :
    (l.filterMap part ++ l.filterMap others).Perm (l.filterMap whole) := by
  induction l with
  | nil => exact .nil
  | cons a l inductionHypothesis =>
    have rest := inductionHypothesis fun b member => split b (List.mem_cons_of_mem a member)
    simp only [List.filterMap_cons]
    rcases split a List.mem_cons_self with ⟨picks, nothing⟩ | ⟨nothing, picks⟩
    · rw [picks, nothing]
      cases whole a with
      | none => exact rest
      | some b => exact rest.cons b
    · rw [picks, nothing]
      cases whole a with
      | none => exact rest
      | some b => exact List.perm_middle.trans (rest.cons b)

/-- A part that picks as much as the whole picks the same. -/
theorem eq_of_filterMap_eq {α β : Type} {part whole : α → Option β} {l : List α}
    (isPart : ∀ a ∈ l, part a = whole a ∨ part a = none)
    (same : ((l.filterMap part : List β) : Multiset β) = (l.filterMap whole : List β)) :
    ∀ a ∈ l, part a = whole a := by
  let others (a : α) : Option β := if (part a).isSome = true then none else whole a
  have split : ∀ a ∈ l, part a = whole a ∧ others a = none ∨ part a = none ∧ others a = whole a := by
    intro a member
    cases picks : part a with
    | some b =>
      have whole_eq : part a = whole a := (isPart a member).resolve_right (by rw [picks]; nofun)
      exact .inl ⟨picks ▸ whole_eq, by simp [others, picks]⟩
    | none => exact .inr ⟨rfl, by simp [others, picks]⟩
  have sizes := (perm_filterMap_of_split split).length_eq
  rw [List.length_append, (Multiset.coe_eq_coe.mp same).length_eq] at sizes
  have nothing : l.filterMap others = [] := List.eq_nil_of_length_eq_zero (by omega)
  intro a member
  rcases isPart a member with picks | idle
  · exact picks
  · have none := List.filterMap_eq_nil_iff.mp nothing a member
    simp only [others, idle, Option.isSome_none, Bool.false_eq_true, if_false] at none
    rw [idle, none]

namespace HttpRequester

variable (crates : XorcNotifications.Crates)

/-- The receipt that is due for the input at position `i`: that of a request that cannot be built,
    or whose network exchange or timer has resolved. -/
def answerDue (inputs : List (Input (Service.httpRequester.handler crates))) (i : Nat) : Option Receipt :=
  match inputs[i]? with
  | some (.item (.ok msg)) =>
    (decodedHttp crates.protobuf msg).bind fun event =>
      let told := (RequestConsumer.pollsOf inputs i).reduceOption
      if buildable crates.http event && !(networkOver told || timerOver told) then none
      else some (.httpResponse msg.key (some ⟨some "http.HttpResponse", some event.getHeader⟩) true)
  | _ => none

/-- The service is still running, and the published records are exactly one response for every
    request whose network exchange or timer has resolved or that could not be built. -/
def AnswersEveryRequest (inputs : List (Input (Service.httpRequester.handler crates))) : Prop :=
  let s := handleRequests crates.protobuf (Service.httpRequester.handler crates) inputs
  s.session.executor.halted = false ∧
    s.session.world.receipts = (Multiset.range inputs.length).filterMap (answerDue crates inputs)

theorem answerDue_eq_some_iff (inputs : List (Input (Service.httpRequester.handler crates))) (i : Nat)
    (receipt : Receipt) :
    answerDue crates inputs i = some receipt ↔
      ∃ msg event, inputs[i]? = some (.item (.ok msg)) ∧
        decodedHttp crates.protobuf msg = some event ∧
        receipt = .httpResponse msg.key (some ⟨some "http.HttpResponse", some event.getHeader⟩) true ∧
        (buildable crates.http event = true →
          networkOver (RequestConsumer.pollsOf inputs i).reduceOption = true ∨
            timerOver (RequestConsumer.pollsOf inputs i).reduceOption = true) := by
  rw [answerDue]
  split
  next msg atI =>
    simp only [atI, Option.bind_eq_some_iff, Option.ite_none_left_eq_some, Option.some.injEq, Input.item.injEq,
      Except.ok.injEq, Bool.and_eq_true, Bool.not_eq_true', not_and, Bool.not_eq_false, Bool.or_eq_true]
    constructor
    · rintro ⟨event, http, resolved, rfl⟩
      exact ⟨msg, event, rfl, http, rfl, resolved⟩
    · rintro ⟨_, event, rfl, http, rfl, resolved⟩
      exact ⟨event, http, resolved, rfl⟩
  next other =>
    constructor
    · intro isDue
      cases isDue
    · rintro ⟨msg, event, atI, -⟩
      exact absurd atI (other msg)

/-- What the exchange of a request waits for is the network or the timer, if that is not late. -/
theorem due_of_request {inputs : List (Input (Service.httpRequester.handler crates))} {i : Nat}
    {msg : BorrowedMessage} {event : HttpRequest} (atI : inputs[i]? = some (.item (.ok msg)))
    (http : decodedHttp crates.protobuf msg = some event) (built : buildable crates.http event = true) :
    Service.due crates .httpRequester inputs i =
      if timerLate (RequestConsumer.pollsOf inputs i).reduceOption then none else answerDue crates inputs i := by
  have isRequest : ∃ call, Requester.request crates.http event = some call := by
    rw [← Option.ne_none_iff_exists', ne_eq, request_eq_none_iff, built]
    nofun
  obtain ⟨call, requested⟩ := isRequest
  have resolves := isSome_outcome_exchange (RequestConsumer.pollsOf inputs i)
  simp only [Service.due, atI, Service.awaits, Service.owed, answerDue, http, Option.bind_some, requested,
    Option.map_some, completed, Option.all_some, Future.outcome_map, Option.isSome_map, resolves, built, Bool.true_and]
  cases networkOver (RequestConsumer.pollsOf inputs i).reduceOption <;>
    cases timerOver (RequestConsumer.pollsOf inputs i).reduceOption <;>
      cases timerLate (RequestConsumer.pollsOf inputs i).reduceOption <;> rfl

theorem due_of_no_request {inputs : List (Input (Service.httpRequester.handler crates))} {i : Nat}
    (noRequest : ∀ msg event, inputs[i]? = some (.item (.ok msg)) → decodedHttp crates.protobuf msg ≠ some event) :
    Service.due crates .httpRequester inputs i = none ∧ answerDue crates inputs i = none := by
  constructor
  · rw [Option.eq_none_iff_forall_ne_some]
    intro receipt isDue
    obtain ⟨msg, atI, owes, -⟩ := (Service.due_eq_some_iff crates .httpRequester inputs i receipt).mp isDue
    obtain ⟨event, http, -⟩ := Option.map_eq_some_iff.mp owes
    exact noRequest msg event atI http
  · rw [Option.eq_none_iff_forall_ne_some]
    intro receipt isDue
    obtain ⟨msg, event, atI, http, -⟩ := (answerDue_eq_some_iff crates inputs i receipt).mp isDue
    exact noRequest msg event atI http

theorem panics_processRequest_iff (msg : BorrowedMessage) :
    Service.panics crates .httpRequester
        (processRequest crates.protobuf (Service.httpRequester.handler crates) msg) ↔
      ∃ event, decodedHttp crates.protobuf msg = some event ∧ buildable crates.http event = false := by
  obtain ⟨event, -, http, called⟩ | ⟨event, -, http, called⟩ | ⟨record, -, http, called⟩ :=
    processRequest_cases crates.protobuf (Service.httpRequester.handler crates) msg <;>
  · rw [called, http]
    simp [Service.panics]

/-- The service runs on as long as every request can be built. -/
theorem running_iff_buildable (inputs : List (Input (Service.httpRequester.handler crates))) :
    (handleRequests crates.protobuf (Service.httpRequester.handler crates)
        inputs).session.executor.halted = false ↔
      ∀ msg, Input.item (.ok msg) ∈ inputs → ∀ event, decodedHttp crates.protobuf msg = some event →
        buildable crates.http event = true := by
  rw [Service.running_iff crates .httpRequester inputs]
  constructor
  · intro quiet msg member event http
    rw [← Bool.not_eq_false]
    intro unbuildable
    exact quiet _ member ((panics_processRequest_iff crates msg).mpr ⟨event, http, unbuildable⟩)
  · intro built input member panics
    cases input with
    | item result =>
      cases result with
      | error e => exact panics
      | ok msg =>
        obtain ⟨event, http, unbuildable⟩ := (panics_processRequest_iff crates msg).mp panics
        rw [built msg member event http] at unbuildable
        cases unbuildable
    | config clients id application => exact panics
    | poll task event => exact panics

/-- What is due by the code is what is due, exactly where no timer is late. -/
theorem due_eq_answerDue_iff {inputs : List (Input (Service.httpRequester.handler crates))}
    (built : ∀ msg, Input.item (.ok msg) ∈ inputs → ∀ event, decodedHttp crates.protobuf msg = some event →
      buildable crates.http event = true) (i : Nat) :
    (Service.due crates .httpRequester inputs i = answerDue crates inputs i ↔
        ∀ msg event, inputs[i]? = some (.item (.ok msg)) → decodedHttp crates.protobuf msg = some event →
          timerLate (RequestConsumer.pollsOf inputs i).reduceOption = false) ∧
      (Service.due crates .httpRequester inputs i = answerDue crates inputs i ∨
        Service.due crates .httpRequester inputs i = none) := by
  by_cases isRequest : ∃ msg event, inputs[i]? = some (.item (.ok msg)) ∧
      decodedHttp crates.protobuf msg = some event
  · obtain ⟨msg, event, atI, http⟩ := isRequest
    rw [due_of_request crates atI http (built msg (List.mem_of_getElem? atI) event http)]
    cases late : timerLate (RequestConsumer.pollsOf inputs i).reduceOption with
    | false => simp
    | true =>
      have resolved := timerOver_of_late late
      have due : answerDue crates inputs i ≠ none := by
        simp [answerDue, atI, http, resolved]
      refine ⟨iff_of_false (Ne.symm due) fun onTime => ?_, .inr rfl⟩
      cases onTime msg event atI http
  · have noRequest : ∀ msg event, inputs[i]? = some (.item (.ok msg)) →
        decodedHttp crates.protobuf msg ≠ some event :=
      fun msg event atI http => isRequest ⟨msg, event, atI, http⟩
    obtain ⟨notDue, nothing⟩ := due_of_no_request crates noRequest
    rw [notDue, nothing]
    exact ⟨iff_of_true rfl fun msg event atI http => absurd http (noRequest msg event atI), .inl rfl⟩

/-- Every request of a run is answered as it should exactly if all of them can be built and no timer
    comes to its end while a body is on its way. -/
theorem http_answered_iff (inputs : List (Input (Service.httpRequester.handler crates))) :
    (AnswersEveryRequest crates inputs ↔
      (∀ msg, Input.item (.ok msg) ∈ inputs → ∀ event, decodedHttp crates.protobuf msg = some event →
        buildable crates.http event = true) ∧
      ∀ i msg event, inputs[i]? = some (.item (.ok msg)) → decodedHttp crates.protobuf msg = some event →
        timerLate (RequestConsumer.pollsOf inputs i).reduceOption = false) ∧
    ∀ i receipt, answerDue crates inputs i = some receipt ↔
      ∃ msg event, inputs[i]? = some (.item (.ok msg)) ∧
        decodedHttp crates.protobuf msg = some event ∧
        receipt = .httpResponse msg.key (some ⟨some "http.HttpResponse", some event.getHeader⟩) true ∧
        (buildable crates.http event = true →
          networkOver (RequestConsumer.pollsOf inputs i).reduceOption = true ∨
            timerOver (RequestConsumer.pollsOf inputs i).reduceOption = true) := by
  refine ⟨?_, answerDue_eq_some_iff crates inputs⟩
  rw [AnswersEveryRequest, running_iff_buildable]
  refine and_congr_right fun built => ?_
  rw [Service.receipts_handleRequests crates .httpRequester ((running_iff_buildable crates inputs).mpr built),
    ← Multiset.coe_range, Multiset.filterMap_coe, Multiset.filterMap_coe]
  constructor
  · intro answered i msg event atI
    have inside : i ∈ List.range inputs.length := List.mem_range.mpr (List.getElem?_eq_some_iff.mp atI).1
    have same := eq_of_filterMap_eq (fun j _ => (due_eq_answerDue_iff crates built j).2) answered i inside
    exact (due_eq_answerDue_iff crates built i).1.mp same msg event atI
  · intro onTime
    exact congrArg _ (List.filterMap_congr fun i _ => (due_eq_answerDue_iff crates built i).1.mpr (onTime i))

/-- A request whose URI has a blank in it. -/
def blankUri : HttpRequest where
  header := none
  requestType := .get
  uri := "http://example.com/a b"
  headers := .empty
  params := .empty
  body := none
  timeout := 1000

theorem blankUri_unanswered :
    let msg : BorrowedMessage := ⟨none, some ⟨#[1]⟩⟩
    ¬ AnswersEveryRequest (sampleCrates (sampleProtobuf "http.HttpRequest" none (some blankUri) none))
      [.item (.ok msg)] := by
  rintro msg ⟨running, -⟩
  refine (Service.running_iff _ .httpRequester _).mp running _ (List.mem_singleton.mpr rfl) ?_
  exact (panics_processRequest_iff _ msg).mpr ⟨blankUri, by decide, by decide⟩

end HttpRequester

end XorcNotifications
