import XorcNotifications.Verified.Draining

/-!
# The fleet

The three push services read one input topic, each as a consumer group of its own, and publish to
one response topic.  No service knows of the others: which of them answers a notification is a
matter of what they accept.  At every moment the answers that have been published and the answers
that tasks still owe make up one answer for each platform that a notification names.
-/

namespace XorcNotifications

open Futures Executors RequestConsumer World

theorem coe_filterMap_eq_sum_amount {α : Type} (f : α → Option Receipt) (l : List α) :
    ((l.filterMap f : List Receipt) : Multiset Receipt) = (l.map fun a => amount (f a)).sum := by
  induction l with
  | nil => rfl
  | cons a l inductionHypothesis =>
    rw [List.map_cons, List.sum_cons, ← inductionHypothesis, List.filterMap_cons]
    cases f a <;> rfl

namespace Service

variable (crates : XorcNotifications.Crates) (service : Service)

/-- The receipts that the tasks of the service owe. -/
def outstanding (inputs : List (Input (service.handler crates))) : Multiset Receipt :=
  (handleRequests crates.protobuf (service.handler crates) inputs).session.executor.tasks.filterMap
    fun task => inputs[task.id]?.bind (service.owedInput crates)

variable {crates service}

theorem due_or_pending (inputs : List (Input (service.handler crates))) (i : Nat) :
    (service.due crates inputs i = inputs[i]?.bind (service.owedInput crates) ∧
        pendingAt (service.steps crates inputs) i = none) ∨
      (service.due crates inputs i = none ∧ (pendingAt (service.steps crates inputs) i).isSome = true) := by
  cases pending : pendingAt (service.steps crates inputs) i with
  | some task =>
    obtain ⟨msg, atI, waits⟩ := (service.pendingAt_steps_iff crates inputs i).mp (by rw [pending]; rfl)
    refine .inr ⟨?_, rfl⟩
    rw [due, atI]
    simp only [waits, Bool.false_eq_true, if_false]
  | none =>
    refine .inl ⟨?_, rfl⟩
    rw [due]
    rcases atI : inputs[i]? with _ | (e | msg) | _ | _
    · rfl
    · rfl
    · have isOver : completed (service.awaits crates (service.tenantsAfter crates (inputs.take i)) msg)
          (RequestConsumer.pollsOf inputs i) = true := by
        rw [← Bool.not_eq_false]
        intro waits
        have isPending := (service.pendingAt_steps_iff crates inputs i).mpr ⟨msg, atI, waits⟩
        rw [pending] at isPending
        cases isPending
      simp only [isOver, if_true]
      rfl
    · rfl
    · rfl

/-- Nothing is lost or answered twice: what has been published and what is outstanding make up
    what is owed for the messages that have been taken. -/
theorem receipts_add_outstanding {inputs : List (Input (service.handler crates))}
    (running : (handleRequests crates.protobuf (service.handler crates) inputs).session.executor.halted = false) :
    (handleRequests crates.protobuf (service.handler crates) inputs).session.world.receipts +
        service.outstanding crates inputs = ((consumed inputs).filterMap (service.owed crates) : List Receipt) := by
  have length : (service.steps crates inputs).length = inputs.length := by
    rw [steps, Session.length_trace, List.length_map]
  have taken : (consumed inputs).filterMap (service.owed crates) =
      inputs.filterMap (service.owedInput crates) := by
    rw [consumed, List.filterMap_filterMap]
    refine List.filterMap_congr fun input _ => ?_
    rcases input with (e | msg) | _ | _ <;> rfl
  rw [service.receipts_handleRequests crates running, outstanding, service.tasks_handleRequests crates running,
    pendingTasks, length, List.filterMap_filterMap, taken,
    ← filterMap_range_getElem inputs (service.owedInput crates), ← Multiset.coe_range, Multiset.filterMap_coe,
    Multiset.coe_add, Multiset.coe_eq_coe]
  refine perm_filterMap_of_split fun i _ => ?_
  rcases due_or_pending inputs i with ⟨isDue, idle⟩ | ⟨notDue, pending⟩
  · exact .inl ⟨isDue, by rw [idle, Option.bind_none]⟩
  · obtain ⟨task, isTask⟩ := Option.isSome_iff_exists.mp pending
    exact .inr ⟨notDue, by rw [isTask, Option.bind_some, pendingAt_id isTask]⟩

end Service

/-! ## Three consumer groups -/

/-- How many of the push services accept the event. -/
def PushNotification.platforms (event : PushNotification) : Nat :=
  event.hasApple.toNat + event.hasGoogle.toNat + event.hasWeb.toNat

/-- The push notification in a message, for whatever platform it is. -/
def decodedPush (pb : Protobuf) : BorrowedMessage → Option PushNotification := acceptedPush pb fun _ => true

/-- One answer for each platform the notification of a message names. -/
def platformAnswers (crates : Crates) (msg : BorrowedMessage) : Multiset Receipt :=
  (decodedPush crates.protobuf msg).elim 0 fun event =>
    Multiset.replicate event.platforms (pushReceipt msg.key event)

namespace PushService

def all : List PushService := [.apns2, .fcm, .webPush]

variable (crates : Crates)

/-- What a service has published and what it still owes. -/
def accountedFor (service : PushService) (inputs : List (Input (service.handler crates))) : Multiset Receipt :=
  (handleRequests crates.protobuf (service.handler crates) inputs).session.world.receipts +
    Service.outstanding crates (.push service) inputs

theorem acceptedPush_eq_filter (accepts : PushNotification → Bool) (msg : BorrowedMessage) :
    acceptedPush crates.protobuf accepts msg = (decodedPush crates.protobuf msg).filter accepts := by
  rw [decodedPush, acceptedPush, acceptedPush]
  cases msg.payload with
  | none => rfl
  | some payload =>
    cases wrapper : crates.protobuf.parseRequestWrapper payload with
    | none => simp [wrapper]
    | some decoder =>
      by_cases isPush : decoder.getHeader.getFieldType = "notification.PushNotification"
      · cases push : crates.protobuf.parsePushNotification payload <;>
          simp [wrapper, isPush, push, Option.filter]
      · simp [wrapper, isPush]

theorem amount_filter (accepts : PushNotification → Bool) (event : PushNotification)
    (receipt : PushNotification → Receipt) :
    amount (((some event).filter accepts).map receipt) =
      Multiset.replicate (accepts event).toNat (receipt event) := by
  cases accepted : accepts event <;> simp [Option.filter, accepted, amount]

theorem sum_amount_owed (msg : BorrowedMessage) :
    (all.map fun service => amount (Service.owed crates (.push service) msg)).sum =
      platformAnswers crates msg := by
  simp only [all, List.map_cons, List.map_nil, List.sum_cons, List.sum_nil, add_zero, Service.owed,
    acceptedPush_eq_filter, platformAnswers]
  cases decodedPush crates.protobuf msg with
  | none => rfl
  | some event =>
    rw [amount_filter, amount_filter, amount_filter, Option.elim_some, PushNotification.platforms,
      Multiset.replicate_add, Multiset.replicate_add, add_assoc]
    rfl

/-- The answers of one service, message by message. -/
theorem accountedFor_eq_sum (service : PushService) {messages : List BorrowedMessage}
    {inputs : List (Input (service.handler crates))} (delivered : (consumed inputs).Perm messages) :
    service.accountedFor crates inputs =
      (messages.map fun msg => amount (Service.owed crates (.push service) msg)).sum := by
  have accounted := @Service.receipts_add_outstanding crates (.push service) inputs
    (PushService.running crates service inputs)
  rw [accountedFor, accounted, Multiset.coe_eq_coe.mpr (delivered.filterMap _), coe_filterMap_eq_sum_amount]

end PushService

/-- Each group takes every message of the topic once, in an order of its own, between whatever else
    happens to its service. -/
theorem fleet_answers_each_platform_once (crates : Crates) (messages : List BorrowedMessage)
    (inputs : (service : PushService) → List (Input (service.handler crates)))
    (delivered : ∀ service, (consumed (inputs service)).Perm messages) :
    (PushService.all.map fun service => service.accountedFor crates (inputs service)).sum =
        (messages.map (platformAnswers crates)).sum ∧
      ((∀ service : PushService, (handleRequests crates.protobuf (service.handler crates)
          (inputs service)).session.executor.tasks = []) →
        (PushService.all.map fun service => (handleRequests crates.protobuf (service.handler crates)
          (inputs service)).session.world.receipts).sum = (messages.map (platformAnswers crates)).sum) := by
  have accounted : (PushService.all.map fun service => service.accountedFor crates (inputs service)).sum =
      (messages.map (platformAnswers crates)).sum := by
    rw [← funext (PushService.sum_amount_owed crates)]
    simp only [PushService.accountedFor_eq_sum crates _ (delivered _), PushService.all, List.map_cons,
      List.map_nil, List.sum_cons, List.sum_nil, add_zero, List.sum_map_add]
  refine ⟨accounted, fun drained => ?_⟩
  rw [← accounted]
  refine congrArg List.sum (List.map_congr_left fun service _ => ?_)
  rw [PushService.accountedFor, Service.outstanding, drained service]
  exact (add_zero _).symm

/-- The notification for FCM, with its tenant only there, while the other groups pass it by. -/
def fleetInputs : (service : PushService) → List (Input (service.handler pushCrates))
  | .fcm => sentPush
  | .apns2 => [.item (.ok pushMessage)]
  | .webPush => [.item (.error "broker"), .item (.ok pushMessage)]

theorem fleetInputs_accountedFor :
    (PushService.all.map fun service => service.accountedFor pushCrates (fleetInputs service)).sum =
      {pushReceipt none samplePush} := by
  have delivered : ∀ service, (consumed (fleetInputs service)).Perm [pushMessage] := by
    intro service
    cases service <;> exact .refl [pushMessage]
  rw [(fleet_answers_each_platform_once pushCrates [pushMessage] fleetInputs delivered).1]
  rfl

end XorcNotifications
