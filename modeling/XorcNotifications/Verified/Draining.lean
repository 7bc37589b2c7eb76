import XorcNotifications.Verified.Verdicts
import XorcNotifications.Verified.Shutdown

/-!
# Draining

No state of a running service is a dead end.  Once the call of every task that waits has
ended, everything the service had taken is answered, whatever it has taken since; and if
that was nothing, it can stop without a loss.
-/

namespace XorcNotifications

open Futures Executors RequestConsumer World

namespace Service

variable (crates : Crates)

/-! ## What ends a wait -/

/-- The call of the message has ended by what its task has been told: the provider has answered,
    or there is a result that the network and the timer have come to. -/
def Ended : (service : Service) → KeyedTables.Table String (service.handler crates).Entry → BorrowedMessage →
    List (Option (service.handler crates).Event) → Prop
  | .push service, tenants, msg, polls => ∀ event entry,
    acceptedPush crates.protobuf (service.handler crates).accepts msg = some event →
      tenants.lookup event.universeId = some entry → (service.answered crates entry event polls).isSome = true
  | .httpRequester, _, _, polls => ∃ told result, told <+: polls.reduceOption ∧ HttpRequester.OutcomeOf told result

variable (service : Service)

theorem providerCall_eq (service : PushService) (tenants : KeyedTables.Table String (service.handler crates).Entry)
    (event : PushNotification) :
    service.providerCall crates tenants event =
      (tenants.lookup event.universeId).map fun entry => (service.reply crates entry event).map fun _ => () := by
  cases service <;> rfl

/-- A message waits no longer for a call that has ended. -/
theorem completed_of_ended {tenants : KeyedTables.Table String (service.handler crates).Entry}
    {msg : BorrowedMessage} {polls : List (Option (service.handler crates).Event)}
    (ended : service.Ended crates tenants msg polls) : completed (service.awaits crates tenants msg) polls = true := by
  rw [completed_iff]
  intro call waits
  cases service with
  | push service =>
    obtain ⟨event, accepted, waits⟩ := Option.bind_eq_some_iff.mp waits
    rw [providerCall_eq] at waits
    obtain ⟨entry, known, rfl⟩ := Option.map_eq_some_iff.mp waits
    rw [Future.outcome_map, Option.isSome_map, PushService.outcome_reply]
    exact ended event entry accepted known
  | httpRequester =>
    obtain ⟨event, -, waits⟩ := Option.bind_eq_some_iff.mp waits
    obtain ⟨request, -, rfl⟩ := Option.map_eq_some_iff.mp waits
    obtain ⟨told, result, early, outcome⟩ := ended
    rw [Future.outcome_map, Option.isSome_map,
      (HttpRequester.outcome_exchange_iff polls result).mpr ⟨told, early, outcome⟩, Option.isSome_some]

/-! ## What is drained -/

/-- The calls of the tasks that wait after the inputs have ended when the later inputs are taken
    too. -/
def Drains (inputs later : List (Input (service.handler crates))) : Prop :=
  ∀ task ∈ (handleRequests crates.protobuf (service.handler crates) inputs).session.executor.tasks,
    ∀ msg, inputs[task.id]? = some (.item (.ok msg)) →
      service.Ended crates (service.tenantsAfter crates (inputs.take task.id)) msg
        (RequestConsumer.pollsOf (inputs ++ later) task.id)

theorem tasks_handleRequests {inputs : List (Input (service.handler crates))}
    (running : (handleRequests crates.protobuf (service.handler crates) inputs).session.executor.halted = false) :
    (handleRequests crates.protobuf (service.handler crates) inputs).session.executor.tasks =
      pendingTasks (service.steps crates inputs) := by
  rw [service.executor_handleRequests] at running ⊢
  exact (run_tasks ((halted_eq_false_iff _ _).mp running) World.init).1

theorem pollsOf_append {inputs later : List (Input (service.handler crates))} {i : Nat} (bound : i < inputs.length) :
    RequestConsumer.pollsOf (inputs ++ later) i =
      RequestConsumer.pollsOf inputs i ++ later.filterMap (Input.pollOf i) := by
  rw [RequestConsumer.pollsOf, List.drop_append_of_le_length bound, List.filterMap_append, RequestConsumer.pollsOf]

/-- What was taken before the tasks are drained is over afterwards. -/
theorem completed_of_drains {inputs later : List (Input (service.handler crates))}
    (running : (handleRequests crates.protobuf (service.handler crates) inputs).session.executor.halted = false)
    (drains : service.Drains crates inputs later) {i : Nat} {msg : BorrowedMessage}
    (atI : inputs[i]? = some (.item (.ok msg))) :
    completed (service.awaits crates (service.tenantsAfter crates ((inputs ++ later).take i)) msg)
      (RequestConsumer.pollsOf (inputs ++ later) i) = true := by
  have bound := (List.getElem?_eq_some_iff.mp atI).1
  rw [List.take_append_of_le_length (Nat.le_of_lt bound)]
  cases isOver : completed (service.awaits crates (service.tenantsAfter crates (inputs.take i)) msg)
      (RequestConsumer.pollsOf inputs i) with
  | true =>
    rw [service.pollsOf_append crates bound]
    exact completed_append isOver _
  | false =>
    have pending := (service.pendingAt_steps_iff crates inputs i).mpr ⟨msg, atI, isOver⟩
    obtain ⟨task, member, rfl⟩ := (exists_mem_pendingTasks_iff _ _).mpr pending
    rw [← service.tasks_handleRequests crates running] at member
    exact service.completed_of_ended crates (drains task member msg atI)

theorem due_of_drains {inputs later : List (Input (service.handler crates))}
    (running : (handleRequests crates.protobuf (service.handler crates) inputs).session.executor.halted = false)
    (drains : service.Drains crates inputs later) {i : Nat} (bound : i < inputs.length) :
    service.due crates (inputs ++ later) i = inputs[i]?.bind (service.owedInput crates) := by
  rw [due, List.getElem?_append_left bound]
  rcases atI : inputs[i]? with _ | (e | msg) | _ | _
  · rfl
  · rfl
  · show (if _ then _ else _) = _
    rw [if_pos (service.completed_of_drains crates running drains atI)]
    rfl
  · rfl
  · rfl

/-- A poll with the event that ends any call of the service. -/
def concluding : (service : Service) → (service.handler crates).Event
  | .push .apns2 => (.error .connectionError : Apns2.ApnsHandler.Answer)
  | .push .fcm => (.ok ⟨none⟩ : Fcm.FcmHandler.Answer)
  | .push .webPush => (.ok () : WebPush.Answer)
  | .httpRequester => HttpRequester.NetEvent.connectionFailed

theorem isSome_answered_of_mem {service : PushService} {entry : (service.handler crates).Entry}
    {event : PushNotification} {polls : List (Option (service.handler crates).Event)}
    {answer : (service.handler crates).Event} (told : answer ∈ polls.reduceOption) :
    (service.answered crates entry event polls).isSome = true := by
  have first : polls.reduceOption.head?.isSome = true := List.isSome_head?.mpr (List.ne_nil_of_mem told)
  cases service with
  | apns2 => exact first
  | fcm => exact first
  | webPush =>
    simp only [PushService.answered]
    split
    · exact first
    · -- A message that is not built has its answer at the first poll.
      cases polls with
      | nil => cases told
      | cons poll polls => rfl

theorem ended_of_concluding {tenants : KeyedTables.Table String (service.handler crates).Entry}
    {msg : BorrowedMessage} {polls : List (Option (service.handler crates).Event)}
    (told : some (service.concluding crates) ∈ polls) : service.Ended crates tenants msg polls := by
  have told := List.reduceOption_mem_iff.mpr told
  cases service with
  | push service => exact fun event entry _ _ => isSome_answered_of_mem crates told
  | httpRequester =>
    obtain ⟨network, onTime⟩ := HttpRequester.networkOver_of_failed told
    have isOver := HttpRequester.isSome_outcome_exchange polls
    rw [network, onTime] at isOver
    obtain ⟨result, outcome⟩ := Option.isSome_iff_exists.mp isOver
    obtain ⟨told, early, outcome⟩ := (HttpRequester.outcome_exchange_iff polls result).mp outcome
    exact ⟨told, result, early, outcome⟩

theorem exists_drains (inputs : List (Input (service.handler crates))) :
    ∃ later, (∀ input ∈ later, input.turn.isSome = true) ∧ service.Drains crates inputs later := by
  refine ⟨(handleRequests crates.protobuf (service.handler crates) inputs).session.executor.tasks.map
    fun task => .poll task.id (some (service.concluding crates)), ?_, fun task member msg atId => ?_⟩
  · intro input member
    obtain ⟨task, -, rfl⟩ := List.mem_map.mp member
    rfl
  · refine service.ended_of_concluding crates ?_
    rw [service.pollsOf_append crates (List.getElem?_eq_some_iff.mp atId).1]
    refine List.mem_append_right _ (List.mem_filterMap.mpr ?_)
    exact ⟨_, List.mem_map.mpr ⟨task, member, rfl⟩, if_pos rfl⟩

theorem running_append {inputs later : List (Input (service.handler crates))}
    (running : (handleRequests crates.protobuf (service.handler crates) inputs).session.executor.halted = false)
    (harmless : ∀ input ∈ later, ¬ service.fatal crates input = true) :
    (handleRequests crates.protobuf (service.handler crates) (inputs ++ later)).session.executor.halted =
      false := by
  rw [running_iff] at running ⊢
  intro input member
  rcases List.mem_append.mp member with before | after
  · exact running input before
  · rw [← service.fatal_iff crates input]
    exact harmless input after

/-- A task that is left belongs to a message that is owed an answer. -/
theorem exists_owed_of_mem_tasks {inputs : List (Input (service.handler crates))}
    (running : (handleRequests crates.protobuf (service.handler crates) inputs).session.executor.halted = false)
    {task} (member : task ∈ (handleRequests crates.protobuf (service.handler crates)
      inputs).session.executor.tasks) :
    ∃ msg receipt, inputs[task.id]? = some (.item (.ok msg)) ∧ service.owed crates msg = some receipt ∧
      completed (service.awaits crates (service.tenantsAfter crates (inputs.take task.id)) msg)
        (RequestConsumer.pollsOf inputs task.id) = false := by
  rw [service.tasks_handleRequests crates running] at member
  have pending := (exists_mem_pendingTasks_iff _ _).mp ⟨task, member, rfl⟩
  obtain ⟨msg, atId, waiting⟩ := (service.pendingAt_steps_iff crates inputs task.id).mp pending
  cases waits : service.awaits crates (service.tenantsAfter crates (inputs.take task.id)) msg with
  | none =>
    rw [waits] at waiting
    cases waiting
  | some call =>
    obtain ⟨receipt, owes⟩ := service.exists_owed_of_awaits crates waits
    exact ⟨msg, receipt, atId, owes, waits ▸ waiting⟩

theorem due_of_not_owed {inputs : List (Input (service.handler crates))} {i : Nat}
    (owesNothing : inputs[i]?.bind (service.owedInput crates) = none) : service.due crates inputs i = none := by
  rw [Option.eq_none_iff_forall_ne_some]
  intro receipt isDue
  obtain ⟨msg, atI, owes, -⟩ := (service.due_eq_some_iff crates inputs i receipt).mp isDue
  rw [atI, Option.bind_some, owedInput, owes] at owesNothing
  cases owesNothing

end Service

theorem filterMap_range_getElem {α β : Type} (l : List α) (f : α → Option β) :
    (List.range l.length).filterMap (fun i => l[i]?.bind f) = l.filterMap f := by
  induction l using List.reverseRecOn with
  | nil => rfl
  | append_singleton l a inductionHypothesis =>
    have before : (List.range l.length).filterMap (fun i => (l ++ [a])[i]?.bind f) =
        (List.range l.length).filterMap fun i => l[i]?.bind f :=
      List.filterMap_congr fun i member => by rw [List.getElem?_append_left (List.mem_range.mp member)]
    rw [List.length_append, List.length_singleton, List.range_succ, List.filterMap_append, before,
      inductionHypothesis, List.filterMap_append]
    simp [List.filterMap_cons]

/-- Every state of a running service can be drained by polls alone; and when the calls of its tasks
    have ended, in any order and among whatever else happens short of a panic, every message it
    had taken before has the answer it is owed, no task from before is left, and if nothing more
    is owed the answers are complete and a stop drops nothing. -/
theorem drained_run_answers_everything (crates : Crates) (service : Service)
    (inputs : List (Input (service.handler crates)))
    (running : (handleRequests crates.protobuf (service.handler crates) inputs).session.executor.halted = false) :
    (∃ later, (∀ input ∈ later, input.turn.isSome = true) ∧ service.Drains crates inputs later) ∧
    ∀ later, service.Drains crates inputs later →
      (∀ input ∈ later, ¬ service.fatal crates input = true) →
      let s := handleRequests crates.protobuf (service.handler crates) (inputs ++ later)
      (∀ i < inputs.length, service.due crates (inputs ++ later) i =
        inputs[i]?.bind (service.owedInput crates)) ∧
      (∀ task ∈ s.session.executor.tasks, inputs.length ≤ task.id) ∧
      ((∀ input ∈ later, service.owedInput crates input = none) →
        s.session.world.receipts = ↑(inputs.filterMap (service.owedInput crates)) ∧
        ∃ stopped, s.stop true = some stopped ∧ stopped.dropped = []) := by
  refine ⟨service.exists_drains crates inputs, fun later drains harmless => ?_⟩
  have runningAfter := service.running_append crates running harmless
  intro s
  have answered : ∀ i < inputs.length, service.due crates (inputs ++ later) i =
      inputs[i]?.bind (service.owedInput crates) :=
    fun i bound => service.due_of_drains crates running drains bound
  have beyond : ∀ task ∈ s.session.executor.tasks, inputs.length ≤ task.id := by
    intro task member
    obtain ⟨msg, receipt, atId, -, waiting⟩ := service.exists_owed_of_mem_tasks crates runningAfter member
    rw [← Nat.not_lt]
    intro bound
    rw [List.getElem?_append_left bound] at atId
    rw [service.completed_of_drains crates running drains atId] at waiting
    cases waiting
  refine ⟨answered, beyond, fun owesNothing => ⟨?_, ?_⟩⟩
  · have owed : ∀ i ∈ List.range (inputs ++ later).length, service.due crates (inputs ++ later) i =
        (inputs ++ later)[i]?.bind (service.owedInput crates) := by
      intro i _
      rcases Nat.lt_or_ge i inputs.length with bound | past
      · rw [answered i bound, List.getElem?_append_left bound]
      · have none : (inputs ++ later)[i]?.bind (service.owedInput crates) = none := by
          rw [List.getElem?_append_right past, Option.bind_eq_none_iff]
          exact fun input atI => owesNothing input (List.mem_of_getElem? atI)
        rw [none, service.due_of_not_owed crates none]
    have rest : later.filterMap (service.owedInput crates) = [] := List.filterMap_eq_nil_iff.mpr owesNothing
    calc s.session.world.receipts
        = ((List.range (inputs ++ later).length : List Nat) : Multiset Nat).filterMap
            (service.due crates (inputs ++ later)) := service.receipts_handleRequests crates runningAfter
      _ = ↑((inputs ++ later).filterMap (service.owedInput crates)) := by
          rw [Multiset.filterMap_coe, List.filterMap_congr owed, filterMap_range_getElem]
      _ = ↑(inputs.filterMap (service.owedInput crates)) := by rw [List.filterMap_append, rest, List.append_nil]
  · refine ⟨_, (stop_eq_some_iff s true _).mpr ⟨runningAfter, rfl, rfl⟩, ?_⟩
    refine List.eq_nil_iff_forall_not_mem.mpr fun task member => ?_
    obtain ⟨msg, receipt, atId, owes, -⟩ := service.exists_owed_of_mem_tasks crates runningAfter member
    rw [List.getElem?_append_right (beyond task member)] at atId
    have none := owesNothing _ (List.mem_of_getElem? atId)
    rw [Service.owedInput, owes] at none
    cases none

/-- The one notification that waits, answered after a poll that tells it nothing. -/
theorem sentPush_drained :
    (handleRequests pushCrates.protobuf (Service.handler pushCrates (.push .fcm))
      (sentPush ++ [.poll 1 none, .poll 1 (some (.ok ⟨none⟩))])).session.world.receipts =
      ↑(sentPush.filterMap (Service.owedInput pushCrates (.push .fcm))) := by
  have drained := (drained_run_answers_everything pushCrates (.push .fcm) sentPush
    (PushService.running pushCrates .fcm sentPush)).2 [.poll 1 none, .poll 1 (some (.ok ⟨none⟩))]
  refine ((drained ?_ ?_).2.2 ?_).1
  · intro task member msg atId event entry _ _
    cases member with
    | head => rfl
    | tail _ none => cases none
  · intro input _ fatal
    cases fatal
  · intro input member
    simp only [List.mem_cons, List.not_mem_nil, or_false] at member
    rcases member with rfl | rfl <;> rfl

end XorcNotifications
