import XorcNotifications.Verified.ExchangeAutomaton
import XorcNotifications.Verified.Outputs

/-!
# Causes

From the outputs of a run to their causes: why a push result asks what it asks for, whose
credentials a call at a provider goes out with, and what an HTTP response reports.
-/

namespace XorcNotifications

open Futures Executors KeyedTables RequestConsumer World

theorem pollsOf_turns {H : EventHandler} (inputs : List (Input H)) (i : Nat) :
    Schedule.pollsOf (inputs.map Input.turn) i = RequestConsumer.pollsOf inputs i := by
  rw [Schedule.pollsOf, ← List.map_drop, List.filterMap_map, RequestConsumer.pollsOf]
  exact List.filterMap_congr fun input _ => by cases input <;> rfl

/-! ## The answers of the providers -/

namespace PushService

variable (crates : Crates)

/-- The provider says that there is no such device; FCM says so with its first result. -/
def Gone : (service : PushService) → (service.handler crates).Event → Prop
  | .apns2, (answer : Apns2.ApnsHandler.Answer) =>
    ∃ reason ∈ [Apns2.ErrorReason.unregistered, .deviceTokenNotForTopic, .badDeviceToken],
      answer = .error (.responseError ⟨some reason⟩)
  | .fcm, (answer : Fcm.FcmHandler.Answer) =>
    ∃ first rest, answer = .ok ⟨some (first :: rest)⟩ ∧ first.error = some .notRegistered
  | .webPush, (answer : WebPush.Answer) =>
    answer = .error .endpointNotFound ∨ answer = .error .endpointNotValid

/-- The call has failed in a way that may be over the next time. -/
def Temporary : (service : PushService) → (service.handler crates).Event → Prop
  | .apns2, (answer : Apns2.ApnsHandler.Answer) =>
    (∃ reason ∈ [Apns2.ErrorReason.internalServerError, .shutdown, .serviceUnavailable,
        .expiredProviderToken, .forbidden], answer = .error (.responseError ⟨some reason⟩)) ∨
      ∃ error, answer = .error error ∧ ∀ response, error ≠ .responseError response
  | .fcm, (answer : Fcm.FcmHandler.Answer) => ∃ retryAfter, answer = .error (.serverError retryAfter)
  | .webPush, (answer : WebPush.Answer) =>
    (∃ retryAfter, answer = .error (.serverError retryAfter)) ∨ answer = .error .timeoutError

/-- What a notification has been answered after these polls: the first answer that its call
    has been told, or the error of a message that could not be built. -/
def answered : (service : PushService) → (service.handler crates).Entry → PushNotification →
    List (Option (service.handler crates).Event) → Option (service.handler crates).Event
  | .apns2, _, _, polls => polls.reduceOption.head?
  | .fcm, _, _, polls => polls.reduceOption.head?
  | .webPush, (entity : WebPush.ApiKey), event, polls =>
    match WebPush.Notifier.buildMessage crates.webPush event entity.fcmApiKey with
    | .ok _ => polls.reduceOption.head?
    | .error error => if polls.isEmpty then none else some (.error error)

theorem outcome_reply (service : PushService) (entry : (service.handler crates).Entry)
    (event : PushNotification) (polls : List (Option (service.handler crates).Event)) :
    (service.reply crates entry event).outcome polls = service.answered crates entry event polls := by
  cases service with
  | apns2 => exact Future.outcome_first_some polls
  | fcm => exact Future.outcome_first_some polls
  | webPush =>
    simp only [reply, WebPush.Notifier.answer, answered]
    cases WebPush.Notifier.buildMessage crates.webPush event entry.fcmApiKey with
    | ok message => exact Future.outcome_first_some polls
    | error error => cases polls <;> rfl

theorem firstError_eq_some_iff (response : Fcm.FcmResponse) (reason : Fcm.ErrorReason) :
    Fcm.FcmProducer.firstError response = some reason ↔
      ∃ first rest, response = ⟨some (first :: rest)⟩ ∧ first.error = some reason := by
  rcases response with _ | _ | ⟨first, rest⟩
  · exact iff_of_false nofun (by rintro ⟨_, _, none, -⟩; cases none)
  · exact iff_of_false nofun (by rintro ⟨_, _, none, -⟩; cases none)
  · constructor
    · exact fun error => ⟨first, rest, rfl, error⟩
    · rintro ⟨_, _, same, error⟩
      cases same
      exact error

theorem unsubscribes_iff (service : PushService) (answer : (service.handler crates).Event) :
    (service.verdict crates answer).1 = .unsubscribeEntity ↔ service.Gone crates answer := by
  cases service with
  | apns2 =>
    rcases answer with (_ | ⟨_ | reason⟩ | _) | response
    · simp [verdict, Gone]
    · simp [verdict, Gone]
    · cases reason <;> simp [verdict, Gone, Apns2.ApnsProducer.responseAction]
    · simp [verdict, Gone]
    · simp [verdict, Gone]
  | fcm =>
    cases answer with
    | error error => cases error <;> simp [verdict, Gone, Fcm.FcmProducer.errorAction]
    | ok response =>
      simp only [verdict, Gone, Except.ok.injEq, ← firstError_eq_some_iff]
      rcases Fcm.FcmProducer.firstError response with _ | _ | _ <;> simp
  | webPush =>
    rcases answer with error | _
    · cases error <;> simp [verdict, Gone, WebPush.WebPushProducer.responseAction]
    · simp [verdict, Gone]

theorem retries_iff (service : PushService) (answer : (service.handler crates).Event) :
    (service.verdict crates answer).1 = .retry ↔ service.Temporary crates answer := by
  cases service with
  | apns2 =>
    rcases answer with (_ | ⟨_ | reason⟩ | _) | response
    · simp [verdict, Temporary]
    · simp [verdict, Temporary]
    · cases reason <;> simp [verdict, Temporary, Apns2.ApnsProducer.responseAction]
    · simp [verdict, Temporary]
    · simp [verdict, Temporary]
  | fcm =>
    cases answer with
    | error error => cases error <;> simp [verdict, Temporary, Fcm.FcmProducer.errorAction]
    | ok response =>
      simp only [verdict, Temporary, reduceCtorEq, exists_false, iff_false]
      rcases Fcm.FcmProducer.firstError response with _ | _ | _ <;> simp
  | webPush =>
    rcases answer with error | _
    · cases error <;> simp [verdict, Temporary, WebPush.WebPushProducer.responseAction]
    · simp [verdict, Temporary]

/-! ## The outputs of the messages -/

variable (service : PushService)

theorem alive_eq (inputs : List (Input (service.handler crates))) :
    Service.alive crates (.push service) inputs = inputs := by
  refine List.takeWhile_eq_self_iff.mpr fun input _ => ?_
  rfl

/-- The output is one that the notification has at its moment, or after these polls. -/
def Lets (tenants : Table String (service.handler crates).Entry) (key : Option Bytes)
    (event : PushNotification) (polls : List (Option (service.handler crates).Event))
    (output : Output (service.handler crates).Call) : Prop :=
  match tenants.lookup event.universeId with
  | none => output = response crates key event (noTenant crates service)
  | some entry =>
    (∃ call, service.request crates entry event = some call ∧ output = .call call) ∨
      ∃ answer, service.answered crates entry event polls = some answer ∧
        output = response crates key event (service.verdict crates answer)

theorem lets_iff (tenants : Table String (service.handler crates).Entry) (key : Option Bytes)
    (event : PushNotification) (polls : List (Option (service.handler crates).Event))
    (output : Output (service.handler crates).Call) :
    output ∈ (service.plan crates tenants key event).now ∨
        output ∈ (service.plan crates tenants key event).later.elim []
          (fun future => (future.outcome polls).getD []) ↔
      service.Lets crates tenants key event polls output := by
  rw [plan, Lets]
  cases tenants.lookup event.universeId with
  | none => simp
  | some entry =>
    simp only [Option.elim_some, Future.outcome_map, outcome_reply, List.mem_map, Option.mem_toList]
    refine or_congr ⟨?_, ?_⟩ ?_
    · rintro ⟨call, asked, rfl⟩
      exact ⟨call, asked, rfl⟩
    · rintro ⟨call, asked, rfl⟩
      exact ⟨call, asked, rfl⟩
    · cases service.answered crates entry event polls <;> simp

theorem planAt_of_accepted {inputs : List (Input (service.handler crates))} {i : Nat}
    {msg : BorrowedMessage} {event : PushNotification} (atI : inputs[i]? = some (.item (.ok msg)))
    (accepted : acceptedPush crates.protobuf (service.handler crates).accepts msg = some event) :
    Service.planAt crates (.push service) inputs i =
      service.plan crates (Service.tenantsAt crates (.push service) inputs i) msg.key event := by
  rw [Service.planAt, atI]
  show Service.plan crates (.push service) _ msg = _
  rw [Service.plan, accepted]
  rfl

theorem planAt_cases (inputs : List (Input (service.handler crates))) (i : Nat) :
    Service.planAt crates (.push service) inputs i = .silent ∨
      ∃ msg event, inputs[i]? = some (.item (.ok msg)) ∧
        acceptedPush crates.protobuf (service.handler crates).accepts msg = some event := by
  cases atI : inputs[i]? with
  | none => exact .inl (by rw [Service.planAt, atI])
  | some input =>
    rcases input with (e | msg) | _ | _
    · exact .inl (by rw [Service.planAt, atI])
    · cases accepted : acceptedPush crates.protobuf (service.handler crates).accepts msg with
      | none =>
        refine .inl ?_
        rw [Service.planAt, atI]
        show Service.plan crates (.push service) _ msg = _
        rw [Service.plan, accepted]
        rfl
      | some event => exact .inr ⟨msg, event, rfl, accepted⟩
    · exact .inl (by rw [Service.planAt, atI])
    · exact .inl (by rw [Service.planAt, atI])

/-- The outputs of a run are those of its accepted notifications. -/
theorem mem_outputs_iff (inputs : List (Input (service.handler crates)))
    (output : Output (service.handler crates).Call) :
    output ∈ Service.outputs crates (.push service) inputs ↔
      ∃ (i : Nat) (msg : BorrowedMessage) (event : PushNotification),
        inputs[i]? = some (.item (.ok msg)) ∧
        acceptedPush crates.protobuf (service.handler crates).accepts msg = some event ∧
        service.Lets crates (Service.tenantsAt crates (.push service) inputs i) msg.key event
          (RequestConsumer.pollsOf inputs i) output := by
  rw [Service.outputs, mem_emitted_iff]
  simp only [settledOutputs, pollsOf_turns, ← lets_iff]
  constructor
  -- Only the plan of an accepted notification has an output.
  · rintro (⟨i, -, member⟩ | ⟨i, member⟩)
    · rcases service.planAt_cases crates inputs i with silent | ⟨msg, event, atI, accepted⟩
      · rw [silent] at member
        cases member
      · rw [service.planAt_of_accepted crates atI accepted] at member
        exact ⟨i, msg, event, atI, accepted, .inl member⟩
    · rcases service.planAt_cases crates inputs i with silent | ⟨msg, event, atI, accepted⟩
      · rw [silent] at member
        cases member
      · rw [service.planAt_of_accepted crates atI accepted] at member
        exact ⟨i, msg, event, atI, accepted, .inr member⟩
  · rintro ⟨i, msg, event, atI, accepted, member⟩
    rw [← service.planAt_of_accepted crates atI accepted] at member
    refine member.imp (fun now => ⟨i, ?_, now⟩) fun later => ⟨i, later⟩
    rw [List.getElem?_map, atI]
    rfl

end PushService

/-! ## Why a device is unsubscribed, or a notification sent again -/

theorem ResponseAction.eq_of_iff {action action' : ResponseAction}
    (unsubscribes : action = .unsubscribeEntity ↔ action' = .unsubscribeEntity)
    (retries : action = .retry ↔ action' = .retry) : action = action' := by
  cases action <;> cases action' <;> simp_all

/-- In every run of a push service the published records are the push results of its accepted
    notifications: for an unknown tenant it asks to send again, and else the answer of the
    provider decides.  It asks to unsubscribe exactly if the provider has said that the device
    is gone, and to send again exactly if the failure may be over the next time. -/
theorem verdicts_have_their_cause (crates : Crates) (service : PushService)
    (inputs : List (Input (service.handler crates))) (record : FutureRecord) :
    record ∈ (handleRequests crates.protobuf (service.handler crates) inputs).session.world.published ↔
      ∃ (i : Nat) (msg : BorrowedMessage) (event : PushNotification) (action : ResponseAction),
        inputs[i]? = some (.item (.ok msg)) ∧
        acceptedPush crates.protobuf (service.handler crates).accepts msg = some event ∧
        record = ⟨crates.outputTopic, msg.key, .pushResult (.into event action)⟩ ∧
        match (Service.tenantsAt crates (.push service) inputs i).lookup event.universeId with
        | none => action = .retry
        | some entry => ∃ answer,
          service.answered crates entry event (RequestConsumer.pollsOf inputs i) = some answer ∧
          (action = .unsubscribeEntity ↔ service.Gone crates answer) ∧
          (action = .retry ↔ service.Temporary crates answer) := by
  rw [Service.published_eq crates (.push service) inputs, service.alive_eq crates inputs, List.mem_filterMap]
  simp only [service.mem_outputs_iff crates inputs]
  constructor
  · rintro ⟨output, ⟨i, msg, event, atI, accepted, lets⟩, isRecord⟩
    rw [PushService.Lets] at lets
    cases found : (Service.tenantsAt crates (.push service) inputs i).lookup event.universeId with
    | none =>
      rw [found] at lets
      subst lets
      cases isRecord
      refine ⟨i, msg, event, .retry, atI, accepted, ?_, by rw [found]⟩
      cases service <;> rfl
    | some entry =>
      rw [found] at lets
      rcases lets with ⟨call, -, rfl⟩ | ⟨answer, told, rfl⟩
      · cases isRecord
      · cases isRecord
        refine ⟨i, msg, event, (service.verdict crates answer).1, atI, accepted, rfl, ?_⟩
        rw [found]
        exact ⟨answer, told, service.unsubscribes_iff crates answer, service.retries_iff crates answer⟩
  · rintro ⟨i, msg, event, action, atI, accepted, rfl, cause⟩
    cases found : (Service.tenantsAt crates (.push service) inputs i).lookup event.universeId with
    | none =>
      rw [found] at cause
      subst cause
      refine ⟨PushService.response crates msg.key event (PushService.noTenant crates service),
        ⟨i, msg, event, atI, accepted, ?_⟩, ?_⟩
      · rw [PushService.Lets, found]
      · cases service <;> rfl
    | some entry =>
      rw [found] at cause
      obtain ⟨answer, told, gone, temporary⟩ := cause
      have same : action = (service.verdict crates answer).1 :=
        ResponseAction.eq_of_iff (gone.trans (service.unsubscribes_iff crates answer).symm)
          (temporary.trans (service.retries_iff crates answer).symm)
      subst same
      refine ⟨PushService.response crates msg.key event (service.verdict crates answer),
        ⟨i, msg, event, atI, accepted, ?_⟩, rfl⟩
      rw [PushService.Lets, found]
      exact .inr ⟨answer, told, rfl⟩

/-! ## Whose credentials a call has -/

namespace PushService

variable (crates : Crates) (service : PushService)

/-- Before position `i`, the configuration at `j` is the last one about the tenant, and it has
    put this entry. -/
def ConfiguredAt (inputs : List (Input (service.handler crates))) (i : Nat) (tenant : String) (j : Nat)
    (entry : (service.handler crates).Entry) : Prop :=
  j < i ∧
    (∃ clients id application, inputs[j]? = some (.config clients id application) ∧
      service.configUpdate crates clients id application = .put tenant entry) ∧
    ∀ (k : Nat) clients id application, j < k → k < i → inputs[k]? = some (.config clients id application) →
      (service.configUpdate crates clients id application).target ≠ some tenant

/-- Only a configuration has a tenant to update. -/
theorem exists_config_of_target {input : Input (service.handler crates)} {tenant : String}
    (target : (Service.tenantUpdate crates (.push service) input).target = some tenant) :
    ∃ clients id application, input = .config clients id application ∧
      Service.tenantUpdate crates (.push service) input = service.configUpdate crates clients id application := by
  cases input with
  | config clients id application => exact ⟨clients, id, application, rfl, rfl⟩
  | item result => cases target
  | poll task event => cases target

theorem lookup_tenantsAt_iff (inputs : List (Input (service.handler crates))) (i : Nat) (tenant : String)
    (entry : (service.handler crates).Entry) :
    (Service.tenantsAt crates (.push service) inputs i).lookup tenant = some entry ↔
      ∃ j, service.ConfiguredAt crates inputs i tenant j entry := by
  have position : ∀ (j : Nat) update,
      ((inputs.take i).map (Service.tenantUpdate crates (.push service)))[j]? = some update ↔
        j < i ∧ ∃ input, inputs[j]? = some input ∧
          Service.tenantUpdate crates (.push service) input = update := by
    intro j update
    rw [List.getElem?_map, List.getElem?_take]
    split
    next before => simp [before]
    next beyond => simp [beyond]
  constructor
  · intro found
    obtain ⟨j, put, -, untouched⟩ := exists_putBy_of_lookup found
    obtain ⟨before, input, atJ, updates⟩ := (position j _).mp put
    obtain ⟨clients, id, application, rfl, isUpdate⟩ :=
      service.exists_config_of_target crates (congrArg Update.target updates)
    refine ⟨j, before, ⟨clients, id, application, atJ, updates⟩, ?_⟩
    intro k clients id application after inside atK
    exact untouched k after _ ((position k _).mpr ⟨inside, _, atK, rfl⟩)
  · rintro ⟨j, before, ⟨clients, id, application, atJ, put⟩, untouched⟩
    have putJ := (position j (.put tenant entry)).mpr ⟨before, _, atJ, put⟩
    refine lookup_of_putBy putJ ⟨⟨entry, putJ⟩, fun k after update atK target => ?_⟩
    obtain ⟨inside, input, here, rfl⟩ := (position k update).mp atK
    obtain ⟨clients, id, application, rfl, isUpdate⟩ := service.exists_config_of_target crates target
    rw [isUpdate] at target
    exact untouched k clients id application after inside here target

/-- The call goes out with the credentials of the entry: the client of the notifier, or the key. -/
def Carries : (service : PushService) → (service.handler crates).Entry → (service.handler crates).Call → Prop
  | .apns2, (notifier : Apns2.Notifier), (call : Apns2.Call) => call.client = notifier.client
  | .fcm, (apiKey : String), (message : Fcm.Message) => message.apiKey = apiKey
  | .webPush, (entity : WebPush.ApiKey), (message : WebPush.WebPushMessage) =>
    message.built.gcmKey = entity.fcmApiKey

/-- Whatever else a payload says, its key is the one it is made with. -/
theorem apiKey_genPayload (crates : Fcm.Crates) (event : PushNotification) (apiKey : String) :
    (Fcm.Notifier.genPayload crates event apiKey).1.apiKey = apiKey := by
  have kept : ∀ (message : Fcm.Message) data,
      (Fcm.Notifier.setData crates message data).1.apiKey = message.apiKey := by
    intro message data
    rw [Fcm.Notifier.setData]
    cases crates.encodeError data <;> rfl
  simp only [Fcm.Notifier.genPayload]
  -- The key is there from the start, and neither branch touches it.
  cases event.getGoogle.localized <;> dsimp only <;> split <;> exact kept _ _

theorem carries_of_request {entry : (service.handler crates).Entry} {event : PushNotification}
    {call : (service.handler crates).Call} (asked : service.request crates entry event = some call) :
    service.Carries crates entry call := by
  cases service with
  | apns2 =>
    cases asked
    rfl
  | fcm =>
    cases asked
    exact apiKey_genPayload crates.fcm event entry
  | webPush =>
    simp only [request, WebPush.Notifier.buildMessage] at asked
    split at asked
    · cases asked
    · split at asked
      · cases asked
      · cases asked
        rfl

end PushService

/-- Every call of a push service is for an accepted notification, and goes out with the
    credentials that the last configuration of its tenant has put; and every accepted
    notification of a tenant that is configured starts its call, if its message can be built. -/
theorem calls_use_last_configuration (crates : Crates) (service : PushService)
    (inputs : List (Input (service.handler crates))) (call : (service.handler crates).Call) :
    call ∈ (handleRequests crates.protobuf (service.handler crates) inputs).session.world.calls ↔
      ∃ (i j : Nat) (msg : BorrowedMessage) (event : PushNotification)
          (entry : (service.handler crates).Entry),
        inputs[i]? = some (.item (.ok msg)) ∧
        acceptedPush crates.protobuf (service.handler crates).accepts msg = some event ∧
        service.ConfiguredAt crates inputs i event.universeId j entry ∧
        service.request crates entry event = some call ∧ service.Carries crates entry call := by
  rw [Service.calls_eq crates (.push service) inputs, service.alive_eq crates inputs, List.mem_filterMap]
  simp only [service.mem_outputs_iff crates inputs]
  constructor
  · rintro ⟨output, ⟨i, msg, event, atI, accepted, lets⟩, isCall⟩
    rw [PushService.Lets] at lets
    cases found : (Service.tenantsAt crates (.push service) inputs i).lookup event.universeId with
    | none =>
      rw [found] at lets
      subst lets
      cases isCall
    | some entry =>
      rw [found] at lets
      rcases lets with ⟨asked, request, rfl⟩ | ⟨answer, told, rfl⟩
      · cases isCall
        obtain ⟨j, configured⟩ := (service.lookup_tenantsAt_iff crates inputs i _ _).mp found
        exact ⟨i, j, msg, event, entry, atI, accepted, configured, request,
          service.carries_of_request crates request⟩
      · cases isCall
  · rintro ⟨i, j, msg, event, entry, atI, accepted, configured, request, -⟩
    have found := (service.lookup_tenantsAt_iff crates inputs i _ _).mpr ⟨j, configured⟩
    refine ⟨.call call, ⟨i, msg, event, atI, accepted, ?_⟩, rfl⟩
    rw [PushService.Lets, found]
    exact .inl ⟨call, request, rfl⟩

/-! ## What an HTTP response reports -/

namespace HttpRequester

open Requester

/-- The exchange has come to this result when its task has been polled so: what it has been
    told has a beginning with this outcome. -/
theorem outcome_exchange_iff (polls : List (Option NetEvent)) (result : Except RequestError HttpResult) :
    exchange.outcome polls = some result ↔ ∃ told, told <+: polls.reduceOption ∧ OutcomeOf told result := by
  have resolves : exchange.outcome polls = some result ↔
      ∃ n, exchange.resolve polls.reduceOption = some (result, n) := by
    cases polls with
    | nil =>
      refine iff_of_false (fun outcome => nomatch outcome) ?_
      rintro ⟨n, resolved⟩
      cases (Phase.live_rest .waiting).symm.trans resolved
    | cons poll polls => simp [Future.outcome]
  rw [resolves]
  constructor
  · rintro ⟨n, resolved⟩
    obtain ⟨-, outcome⟩ := ((exchange_outcomes _).2 result n).mp resolved
    exact ⟨_, List.take_prefix n _, outcome⟩
  · rintro ⟨told, ⟨later, split⟩, outcome⟩
    refine ⟨told.length, ((exchange_outcomes _).2 result told.length).mpr ⟨?_, ?_⟩⟩
    · rw [← split, List.length_append]
      exact Nat.le_add_right _ _
    · rwa [← split, List.take_left]

section Run

variable (crates : XorcNotifications.Crates) (inputs : List (Input (Service.httpRequester.handler crates)))

theorem mem_planAt_now_iff (i : Nat) (output : Output Call) :
    output ∈ (Service.httpRequester.planAt crates inputs i).now ↔
      ∃ msg event call, inputs[i]? = some (.item (.ok msg)) ∧ decodedHttp crates.protobuf msg = some event ∧
        request crates.http event = some call ∧ output = .call call := by
  rw [Service.planAt]
  rcases inputs[i]? with _ | (e | msg) | _ | _
  · simp [Plan.silent]
  · simp [Plan.silent]
  · show output ∈ (Service.plan crates .httpRequester _ msg).now ↔ _
    rw [Service.plan]
    cases decoded : decodedHttp crates.protobuf msg with
    | none => simp [decoded, Plan.silent]
    | some event =>
      rw [Option.elim_some, HttpRequester.plan]
      cases built : request crates.http event with
      | none => simp [decoded, built, Plan.silent]
      | some call => simp [decoded, built]
  · simp [Plan.silent]
  · simp [Plan.silent]

/-- What is published for the result of an exchange. -/
def responseRecord (key : Option Bytes) (event : HttpRequest) (result : Except RequestError HttpResult) :
    Output Call :=
  .response (some (HttpResponseProducer.resultLabel result))
    ⟨crates.outputTopic, key, .httpResponse (HttpResponseProducer.toResponse event.getHeader result)⟩

theorem mem_settledOutputs_planAt_iff (i : Nat) (output : Output Call) :
    output ∈ settledOutputs (Service.httpRequester.planAt crates inputs) (inputs.map Input.turn) i ↔
      ∃ msg event call result, inputs[i]? = some (.item (.ok msg)) ∧
        decodedHttp crates.protobuf msg = some event ∧ request crates.http event = some call ∧
        exchange.outcome (RequestConsumer.pollsOf inputs i) = some result ∧
        output = responseRecord crates msg.key event result := by
  rw [settledOutputs, pollsOf_turns, Service.planAt]
  rcases inputs[i]? with _ | (e | msg) | _ | _
  · simp [Plan.silent]
  · simp [Plan.silent]
  · show output ∈ (Service.plan crates .httpRequester _ msg).later.elim [] _ ↔ _
    rw [Service.plan]
    cases decoded : decodedHttp crates.protobuf msg with
    | none => simp [decoded, Plan.silent]
    | some event =>
      rw [Option.elim_some, HttpRequester.plan]
      cases built : request crates.http event with
      | none => simp [decoded, built, Plan.silent]
      | some call =>
        rw [Option.elim_some, Future.outcome_map]
        cases ended : exchange.outcome (RequestConsumer.pollsOf inputs i) with
        | none => simp
        | some result => simp [decoded, built, responseRecord]
  · simp [Plan.silent]
  · simp [Plan.silent]

/-- Where a request has not ended the service it could be built. -/
theorem request_of_alive {i : Nat} {msg : BorrowedMessage} {event : HttpRequest}
    (atI : (Service.httpRequester.alive crates inputs)[i]? = some (.item (.ok msg)))
    (decoded : decodedHttp crates.protobuf msg = some event) :
    ∃ call, request crates.http event = some call := by
  have alive := List.mem_takeWhile_imp (List.mem_of_getElem? atI)
  simp only [Service.fatal, decoded, Option.any_some, Bool.not_not] at alive
  cases built : request crates.http event with
  | some call => exact ⟨call, rfl⟩
  | none =>
    rw [(request_eq_none_iff crates.http event).mp built] at alive
    cases alive

/-- The outputs of a run are those of its requests. -/
theorem mem_outputs_iff (output : Output Call) :
    output ∈ Service.outputs crates .httpRequester inputs ↔
      ∃ (i : Nat) (msg : BorrowedMessage) (event : HttpRequest) (call : Call),
        inputs[i]? = some (.item (.ok msg)) ∧ decodedHttp crates.protobuf msg = some event ∧
        request crates.http event = some call ∧
        (output = .call call ∨ ∃ result,
          exchange.outcome (RequestConsumer.pollsOf inputs i) = some result ∧
          output = responseRecord crates msg.key event result) := by
  constructor
  · intro member
    rcases (mem_emitted_iff _ _ _).mp member with ⟨i, -, now⟩ | ⟨i, later⟩
    · obtain ⟨msg, event, call, atI, decoded, built, isCall⟩ := (mem_planAt_now_iff crates inputs i output).mp now
      exact ⟨i, msg, event, call, atI, decoded, built, .inl isCall⟩
    · obtain ⟨msg, event, call, result, atI, decoded, built, ended, isRecord⟩ :=
        (mem_settledOutputs_planAt_iff crates inputs i output).mp later
      exact ⟨i, msg, event, call, atI, decoded, built, .inr ⟨result, ended, isRecord⟩⟩
  · rintro ⟨i, msg, event, call, atI, decoded, built, isCall | ⟨result, ended, isRecord⟩⟩
    · refine (mem_emitted_iff _ _ _).mpr (.inl ⟨i, ?_, ?_⟩)
      · rw [List.getElem?_map, atI]
        rfl
      · exact (mem_planAt_now_iff crates inputs i output).mpr ⟨msg, event, call, atI, decoded, built, isCall⟩
    · exact (mem_emitted_iff _ _ _).mpr (.inr ⟨i, (mem_settledOutputs_planAt_iff crates inputs i output).mpr
        ⟨msg, event, call, result, atI, decoded, built, ended, isRecord⟩⟩)

end Run

/-- In every run of `http_requester`, up to the request that ends it, the calls are the built
    requests among the messages, and a record is published exactly for each of them whose
    exchange is over: it goes to the key of the message, carries the header of the request,
    and reports what the network and the timer have told up to the deciding event. -/
theorem http_responses_have_their_cause (crates : XorcNotifications.Crates)
    (inputs : List (Input (Service.httpRequester.handler crates))) :
    let alive := Service.httpRequester.alive crates inputs
    let w := (handleRequests crates.protobuf (Service.httpRequester.handler crates) inputs).session.world
    (∀ call : Call, call ∈ w.calls ↔ ∃ (i : Nat) (msg : BorrowedMessage) (event : HttpRequest),
      alive[i]? = some (.item (.ok msg)) ∧ decodedHttp crates.protobuf msg = some event ∧
      request crates.http event = some call) ∧
    ∀ record, record ∈ w.published ↔
      ∃ (i : Nat) (msg : BorrowedMessage) (event : HttpRequest) (told : List NetEvent)
          (result : Except RequestError HttpResult),
        alive[i]? = some (.item (.ok msg)) ∧ decodedHttp crates.protobuf msg = some event ∧
        told <+: (RequestConsumer.pollsOf alive i).reduceOption ∧ OutcomeOf told result ∧
        record = ⟨crates.outputTopic, msg.key,
          .httpResponse (HttpResponseProducer.toResponse event.getHeader result)⟩ := by
  intro alive w
  have calls : w.calls = (Service.outputs crates .httpRequester alive).filterMap Output.asked :=
    Service.calls_eq crates .httpRequester inputs
  have published : w.published = (Service.outputs crates .httpRequester alive).filterMap Output.record :=
    Service.published_eq crates .httpRequester inputs
  constructor
  · intro call
    rw [calls, List.mem_filterMap]
    simp only [mem_outputs_iff crates alive]
    constructor
    · rintro ⟨output, ⟨i, msg, event, call', atI, decoded, built, rfl | ⟨_, _, rfl⟩⟩, isCall⟩
      · cases isCall
        exact ⟨i, msg, event, atI, decoded, built⟩
      · cases isCall
    · rintro ⟨i, msg, event, atI, decoded, built⟩
      exact ⟨_, ⟨i, msg, event, call, atI, decoded, built, .inl rfl⟩, rfl⟩
  · intro record
    rw [published, List.mem_filterMap]
    simp only [mem_outputs_iff crates alive, outcome_exchange_iff]
    constructor
    · rintro ⟨output, ⟨i, msg, event, call, atI, decoded, built, rfl |
        ⟨result, ⟨told, early, outcome⟩, rfl⟩⟩, isRecord⟩
      · cases isRecord
      · cases isRecord
        exact ⟨i, msg, event, told, result, atI, decoded, early, outcome, rfl⟩
    · rintro ⟨i, msg, event, told, result, atI, decoded, early, outcome, rfl⟩
      obtain ⟨call, built⟩ := request_of_alive crates inputs atI decoded
      exact ⟨_, ⟨i, msg, event, call, atI, decoded, built, .inr ⟨result, ⟨told, early, outcome⟩, rfl⟩⟩, rfl⟩

end HttpRequester

end XorcNotifications
