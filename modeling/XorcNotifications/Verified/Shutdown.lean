import XorcNotifications.Verified.Answers

/-!
# The end of the request loop

When the control signal fires, the loop commits and returns.  Nothing waits for the
tasks it has spawned: they are dropped with the runtime, while the offsets of their
messages are committed.
-/

namespace XorcNotifications

open Futures Executors RequestConsumer World

namespace RequestConsumer

theorem stop_eq_some_iff {H : EventHandler} (s : State H) (commitOk : Bool) (stopped : Stopped H) :
    s.stop commitOk = some stopped ↔
      s.session.executor.halted = false ∧ commitOk = true ∧
        stopped = ⟨s.session.world, s.stored, s.session.executor.tasks⟩ := by
  rw [State.stop]
  cases s.session.executor.halted <;> cases commitOk <;> simp [eq_comm]

end RequestConsumer

namespace Service

variable (crates : Crates) (service : Service)

/-- The task of the input at position `i` is pending exactly while its message is owed a
    receipt that is not due. -/
theorem pendingAt_steps_iff (inputs : List (Input (service.handler crates))) (i : Nat) :
    (pendingAt (service.steps crates inputs) i).isSome = true ↔
      ∃ msg, inputs[i]? = some (.item (.ok msg)) ∧
        completed (service.awaits crates (service.tenantsAfter crates (inputs.take i)) msg)
          (RequestConsumer.pollsOf inputs i) = false := by
  rw [pendingAt_isSome_iff, getElem?_steps, steps, HandlerCall.pollsOf_trace, RequestConsumer.pollsOf_map]
  constructor
  -- Only a message leaves a task, and its task waits for what the message waits for.
  · intro pending
    obtain ⟨r, position, waiting⟩ := pending
    obtain ⟨input, atI, reacts⟩ := Option.map_eq_some_iff.mp position
    cases input with
    | item result =>
      cases result with
      | ok msg => exact ⟨msg, atI, by rw [← service.signal_processRequest crates _ reacts]; exact waiting⟩
      | error e =>
        cases reacts
        cases waiting
    | config clients id application => cases reacts
    | poll task event => cases reacts
  · intro waits
    obtain ⟨msg, atI, waiting⟩ := waits
    obtain ⟨r, reacts⟩ :=
      service.processRequest_reacts crates (service.tenantsAfter crates (inputs.take i)) msg
    refine ⟨r, ?_, ?_⟩
    · rw [atI, Option.map_some, Input.toCall, reacts]
    · rw [service.signal_processRequest crates _ reacts]
      exact waiting

theorem exists_owed_of_awaits {tenants} {msg : BorrowedMessage} {call : Future _ Unit}
    (waits : service.awaits crates tenants msg = some call) :
    ∃ receipt, service.owed crates msg = some receipt := by
  cases service with
  | push service =>
    obtain ⟨event, push, -⟩ := Option.bind_eq_some_iff.mp waits
    exact ⟨_, Option.map_eq_some_iff.mpr ⟨event, push, rfl⟩⟩
  | httpRequester =>
    obtain ⟨event, http, -⟩ := Option.bind_eq_some_iff.mp waits
    exact ⟨_, Option.map_eq_some_iff.mpr ⟨event, http, rfl⟩⟩

end Service

/-- When the request loop has returned, every message it took is covered by the commit,
    every receipt that was due is published, and the receipts that were owed and not due
    are those of the tasks that were dropped. -/
theorem stop_answers_what_was_due (crates : Crates) (service : Service)
    (inputs : List (Input (service.handler crates))) (commitOk : Bool)
    (stopped : Stopped (service.handler crates))
    (returned : (handleRequests crates.protobuf (service.handler crates) inputs).stop commitOk =
      some stopped) :
    stopped.committed = consumed inputs ∧
    stopped.world.receipts = (Multiset.range inputs.length).filterMap (service.due crates inputs) ∧
    ∀ i, (∃ task ∈ stopped.dropped, task.id = i) ↔
      ∃ msg receipt, inputs[i]? = some (.item (.ok msg)) ∧ service.owed crates msg = some receipt ∧
        service.due crates inputs i = none := by
  obtain ⟨running, -, rfl⟩ := (stop_eq_some_iff _ _ _).mp returned
  refine ⟨stored_handleRequests crates.protobuf running,
    service.receipts_handleRequests crates running, fun i => ?_⟩
  have tasks : (handleRequests crates.protobuf (service.handler crates) inputs).session.executor.tasks =
      pendingTasks (service.steps crates inputs) := by
    rw [service.executor_handleRequests] at running ⊢
    exact (run_tasks ((halted_eq_false_iff _ _).mp running) World.init).1
  rw [show Stopped.dropped _ = _ from tasks, exists_mem_pendingTasks_iff, service.pendingAt_steps_iff]
  constructor
  · intro waits
    obtain ⟨msg, atI, waiting⟩ := waits
    cases waits : service.awaits crates (service.tenantsAfter crates (inputs.take i)) msg with
    | none =>
      rw [waits] at waiting
      cases waiting
    | some call =>
      obtain ⟨receipt, owes⟩ := service.exists_owed_of_awaits crates waits
      refine ⟨msg, receipt, atI, owes, ?_⟩
      simp only [Service.due, atI, waiting, Bool.false_eq_true, if_false]
  · intro outstanding
    obtain ⟨msg, receipt, atI, owes, notDue⟩ := outstanding
    refine ⟨msg, atI, ?_⟩
    simp only [Service.due, atI, owes] at notDue
    rw [← Bool.not_eq_true]
    intro isOver
    rw [if_pos isOver] at notDue
    cases notDue

/-! ## A push notification on its way -/

def pushCrates : Crates :=
  sampleCrates (sampleProtobuf "notification.PushNotification" (some samplePush) none none)

def pushMessage : BorrowedMessage := ⟨none, some ⟨#[1]⟩⟩

/-- fcm with the tenant `A` and one notification. -/
def sentPush : List (Input (Service.handler pushCrates (.push .fcm))) :=
  [.config () "A" (some (sampleApplication "A")), .item (.ok pushMessage)]

def answeredPush : List (Input (Service.handler pushCrates (.push .fcm))) :=
  sentPush ++ [.poll 1 (some (.ok ⟨none⟩))]

/-- Once FCM has answered, so has the service. -/
theorem stop_after_answer :
    ∃ stopped, (handleRequests pushCrates.protobuf (Service.handler pushCrates (.push .fcm))
        answeredPush).stop true = some stopped ∧
      stopped.world.receipts = {pushReceipt none samplePush} := by
  have running := PushService.running pushCrates .fcm answeredPush
  have returned := (stop_eq_some_iff _ true _).mpr ⟨running, rfl, rfl⟩
  refine ⟨_, returned, ?_⟩
  rw [(stop_answers_what_was_due pushCrates (.push .fcm) answeredPush true _ returned).2.1]
  decide

/-- Before that the message is committed all the same, and nobody is told. -/
theorem stop_loses_accepted_push :
    ∃ stopped, (handleRequests pushCrates.protobuf (Service.handler pushCrates (.push .fcm))
        sentPush).stop true = some stopped ∧
      stopped.committed = [pushMessage] ∧
      acceptedPush pushCrates.protobuf Fcm.FcmHandler.accepts pushMessage = some samplePush ∧
      stopped.world.published = [] := by
  have running := PushService.running pushCrates .fcm sentPush
  exact ⟨_, (stop_eq_some_iff _ true _).mpr ⟨running, rfl, rfl⟩, rfl, rfl, rfl⟩

end XorcNotifications
