import Mathlib.Data.List.TakeWhile
import XorcNotifications.Lib.Emission
import XorcNotifications.Verified.Answers

/-!
# The outputs of a service

What a service is there for, said without its threads, futures and metrics: a message it
accepts is a call at the provider, with what the service keeps for the tenant, and the
answer to the call is a verdict that is published.  A run then lets out what its messages
plan, each output at its moment, and nothing else.
-/

namespace XorcNotifications

open Futures Executors KeyedTables RequestConsumer World

/-! ## Outputs -/

/-- A call at the provider, or a record and the label under which it is counted, if it is. -/
inductive Output (Call : Type) where
  | call (call : Call)
  | response (label : Option String) (record : FutureRecord)

namespace Output

variable {Call : Type}

def asked : Output Call → Option Call
  | .call asked => some asked
  | .response _ _ => none

def record : Output Call → Option FutureRecord
  | .call _ => none
  | .response _ published => some published

def label : Output Call → Option String
  | .call _ => none
  | .response counted _ => counted

end Output

/-- What the outputs of a service have come to. -/
structure Outlet (Call : Type) where
  calls : List Call
  published : List FutureRecord
  counter : CounterVec

namespace Outlet

variable {Call : Type}

def take (outlet : Outlet Call) : Output Call → Outlet Call
  | .call call => { outlet with calls := outlet.calls ++ [call] }
  | .response label record =>
    { outlet with
      published := outlet.published ++ [record]
      counter := label.elim outlet.counter outlet.counter.inc }

theorem foldl_take (outlet : Outlet Call) (outputs : List (Output Call)) :
    outputs.foldl take outlet =
      ⟨outlet.calls ++ outputs.filterMap Output.asked,
        outlet.published ++ outputs.filterMap Output.record,
        (outputs.filterMap Output.label).foldl CounterVec.inc outlet.counter⟩ := by
  induction outputs generalizing outlet with
  | nil => simp
  | cons output outputs inductionHypothesis =>
    rw [List.foldl_cons, inductionHypothesis]
    cases output with
    | call call => simp [take, List.filterMap_cons, Output.asked, Output.record, Output.label]
    | response label record =>
      cases label <;> simp [take, List.filterMap_cons, Output.asked, Output.record, Output.label]

end Outlet

def World.outlet {Call : Type} (w : World Call) : Outlet Call :=
  ⟨w.calls, w.published, w.metrics.callbacksCounter⟩

theorem World.outlet_of_unseen {Call : Type} {w w' : World Call} (calls : w'.calls = w.calls)
    (unseen : Unseen w w') : w'.outlet = w.outlet := by
  rw [outlet, calls, unseen.published, unseen.counted, outlet]

/-! ## What a push notification asks for -/

namespace PushService

variable (crates : Crates)

/-- The call for a notification, with what the service keeps for its tenant.  There is none
    for a web push message that cannot be built. -/
def request : (service : PushService) → (service.handler crates).Entry → PushNotification →
    Option (service.handler crates).Call
  | .apns2, (notifier : Apns2.Notifier), event =>
    some ⟨notifier.client, (notifier.genPayload crates.apns2 event).1, 3⟩
  | .fcm, (apiKey : String), event => some (Fcm.Notifier.genPayload crates.fcm event apiKey).1
  | .webPush, (entity : WebPush.ApiKey), event =>
    (WebPush.Notifier.buildMessage crates.webPush event entity.fcmApiKey).toOption

/-- The answer that the notification waits for. -/
def reply : (service : PushService) → (service.handler crates).Entry → PushNotification →
    Future (service.handler crates).Event (service.handler crates).Event
  | .apns2, _, _ => Apns2.ApnsHandler.answer
  | .fcm, _, _ => Fcm.FcmHandler.answer
  | .webPush, (entity : WebPush.ApiKey), event =>
    WebPush.Notifier.answer crates.webPush event entity.fcmApiKey

/-- What an answer means for the device, and the label it is counted under. -/
def verdict : (service : PushService) → (service.handler crates).Event → ResponseAction × Option String
  | .apns2, (answer : Apns2.ApnsHandler.Answer) =>
    match answer with
    | .ok _ => (.none, some "success")
    | .error (.responseError ⟨some reason⟩) =>
      (Apns2.ApnsProducer.responseAction reason, some (crates.apns2.toSnakeCase reason.debug))
    | .error (.responseError ⟨none⟩) => (.none, some "Unknown")
    | .error error => (.retry, some (crates.apns2.toSnakeCase (crates.apns2.debugError error)))
  | .fcm, (answer : Fcm.FcmHandler.Answer) =>
    match answer with
    | .ok response =>
      match Fcm.FcmProducer.firstError response with
      | some .notRegistered => (.unsubscribeEntity, some "NotRegistered")
      | some (.other name) => (.none, some name)
      | none => (.none, none)
    | .error error =>
      ((Fcm.FcmProducer.errorAction error).2, some (Fcm.FcmProducer.errorAction error).1)
  | .webPush, (answer : WebPush.Answer) =>
    match answer with
    | .ok () => (.none, some "success")
    | .error error =>
      (WebPush.WebPushProducer.responseAction error, some (crates.webPush.shortDescription error))

/-- The verdict on a notification of an unknown tenant. -/
def noTenant : PushService → ResponseAction × Option String
  | .apns2 => (.retry, some (crates.apns2.toSnakeCase (crates.apns2.debugError .connectionError)))
  | .fcm | .webPush => (.retry, some "certificate_missing")

def response {Call : Type} (key : Option Bytes) (event : PushNotification)
    (verdict : ResponseAction × Option String) : Output Call :=
  .response verdict.2 ⟨crates.outputTopic, key, .pushResult (.into event verdict.1)⟩

variable (service : PushService)

def plan (tenants : Table String (service.handler crates).Entry) (key : Option Bytes)
    (event : PushNotification) : Plan (service.handler crates).Event (Output (service.handler crates).Call) :=
  match tenants.lookup event.universeId with
  | none => ⟨[response crates key event (noTenant crates service)], none⟩
  | some entry =>
    ⟨(service.request crates entry event).toList.map .call,
      some ((service.reply crates entry event).map fun answer =>
        [response crates key event (service.verdict crates answer)])⟩

end PushService

/-! ## What a message asks for -/

/-- The poll that an input is, if it is one. -/
def RequestConsumer.Input.turn {H : EventHandler} : Input H → Option (Nat × Option H.Event)
  | .poll task event => some (task, event)
  | _ => none

def HttpRequester.plan (crates : XorcNotifications.Crates) (key : Option Bytes) (event : HttpRequest) :
    Plan NetEvent (Output Call) :=
  match Requester.request crates.http event with
  | none => .silent
  | some call =>
    ⟨[.call call], some (Requester.exchange.map fun result =>
      [.response (some (HttpResponseProducer.resultLabel result))
        ⟨crates.outputTopic, key, .httpResponse (HttpResponseProducer.toResponse event.getHeader result)⟩])⟩

namespace Service

variable (crates : Crates)

def plan : (service : Service) → Table String (service.handler crates).Entry → BorrowedMessage →
    Plan (service.handler crates).Event (Output (service.handler crates).Call)
  | .push service, tenants, msg =>
    (acceptedPush crates.protobuf (service.handler crates).accepts msg).elim .silent
      (service.plan crates tenants msg.key)
  | .httpRequester, _, msg => (decodedHttp crates.protobuf msg).elim .silent (HttpRequester.plan crates msg.key)

/-- The update of the tenant table that an input is. -/
def tenantUpdate : (service : Service) → Input (service.handler crates) →
    Update String (service.handler crates).Entry
  | .push service, .config clients id application => service.configUpdate crates clients id application
  | _, _ => .skip

/-- The request that ends the service, if the input is one. -/
def fatal : (service : Service) → Input (service.handler crates) → Bool
  | .httpRequester, .item (.ok msg) =>
    (decodedHttp crates.protobuf msg).any fun event => !HttpRequester.buildable crates.http event
  | _, _ => false

variable (service : Service)

/-- The tenants that the configurations before position `i` have left. -/
def tenantsAt (inputs : List (Input (service.handler crates))) (i : Nat) :
    Table String (service.handler crates).Entry :=
  Table.applyAll ∅ ((inputs.take i).map (service.tenantUpdate crates))

def planAt (inputs : List (Input (service.handler crates))) (i : Nat) :
    Plan (service.handler crates).Event (Output (service.handler crates).Call) :=
  match inputs[i]? with
  | some (.item (.ok msg)) => service.plan crates (service.tenantsAt crates inputs i) msg
  | _ => .silent

/-- What the inputs let out, each output at its moment. -/
def outputs (inputs : List (Input (service.handler crates))) : List (Output (service.handler crates).Call) :=
  emitted (service.planAt crates inputs) (inputs.map Input.turn)

end Service

/-! ## The handlers follow their plans -/

section Handlers

variable (crates : XorcNotifications.Crates) (key : Option Bytes) (event : PushNotification)

namespace Apns2

theorem shows_onAnswer (answer : ApnsHandler.Answer) :
    Shows World.outlet Outlet.take (ApnsHandler.onAnswer crates.apns2 crates.outputTopic key event answer)
      [PushService.response crates key event (PushService.apns2.verdict crates answer)] := by
  intro w
  cases answer with
  | ok response => rfl
  | error error =>
    cases error with
    | responseError response =>
      obtain ⟨reason⟩ := response
      cases reason <;> rfl
    | connectionError => rfl
    | other debug => rfl

theorem follows_handleNotification (notifiers : ApnsHandler.Notifiers) :
    Follows World.outlet Outlet.take
      (ApnsHandler.handleNotification crates.apns2 crates.outputTopic notifiers key event)
      (PushService.apns2.plan crates notifiers key event) := by
  rw [PushService.plan]
  cases found : notifiers.lookup event.universeId with
  | none =>
    rw [handleNotification_unknown crates.apns2 crates.outputTopic key found]
    exact follows_nothing fun w => rfl
  | some notifier =>
    rw [handleNotification_known crates.apns2 crates.outputTopic key found]
    exact follows_task (fun w => rfl) (shows_onAnswer crates key event)

end Apns2

namespace Fcm

theorem shows_onAnswer (answer : FcmHandler.Answer) :
    Shows World.outlet Outlet.take (FcmHandler.onAnswer crates.outputTopic key event answer)
      [PushService.response crates key event (PushService.fcm.verdict crates answer)] := by
  intro w
  cases answer with
  | error error => rfl
  | ok response =>
    simp only [FcmHandler.onAnswer, FcmProducer.handleResponse, PushService.verdict]
    cases FcmProducer.firstError response with
    | none => rfl
    | some reason => cases reason <;> rfl

theorem follows_handleNotification (apiKeys : FcmHandler.ApiKeys) :
    Follows World.outlet Outlet.take
      (FcmHandler.handleNotification crates.fcm crates.outputTopic apiKeys key event)
      (PushService.fcm.plan crates apiKeys key event) := by
  rw [PushService.plan]
  cases found : apiKeys.lookup event.universeId with
  | none =>
    rw [handleNotification_unknown crates.fcm crates.outputTopic key found]
    exact follows_nothing fun w => rfl
  | some apiKey =>
    rw [handleNotification_known crates.fcm crates.outputTopic key found]
    exact follows_task (fun w => rfl) (shows_onAnswer crates key event)

end Fcm

namespace WebPush

theorem shows_onAnswer (answer : Answer) :
    Shows World.outlet Outlet.take (WebPushHandler.onAnswer crates.webPush crates.outputTopic key event answer)
      [PushService.response crates key event (PushService.webPush.verdict crates answer)] := by
  intro w
  cases answer <;> rfl

theorem shows_notify (entity : ApiKey) :
    Shows World.outlet Outlet.take
      (fun w : World => Notifier.notify crates.webPush event entity.fcmApiKey w.incInflight)
      ((PushService.webPush.request crates entity event).toList.map .call) := by
  intro w
  simp only [Notifier.notify, PushService.request]
  cases Notifier.buildMessage crates.webPush event entity.fcmApiKey <;> rfl

theorem follows_handleNotification (fcmApiKeys : WebPushHandler.FcmApiKeys) :
    Follows World.outlet Outlet.take
      (WebPushHandler.handleNotification crates.webPush crates.outputTopic fcmApiKeys key event)
      (PushService.webPush.plan crates fcmApiKeys key event) := by
  rw [PushService.plan]
  cases found : fcmApiKeys.lookup event.universeId with
  | none =>
    rw [handleNotification_unknown crates.webPush crates.outputTopic key found]
    exact follows_nothing fun w => rfl
  | some entity =>
    rw [handleNotification_known crates.webPush crates.outputTopic key found]
    exact follows_task (shows_notify crates event entity) (shows_onAnswer crates key event)

end WebPush

theorem PushService.follows_handleNotification (service : PushService)
    (tenants : Table String (service.handler crates).Entry) :
    Follows World.outlet Outlet.take ((service.handler crates).handleNotification tenants key event)
      (service.plan crates tenants key event) := by
  cases service with
  | apns2 => exact Apns2.follows_handleNotification crates key event tenants
  | fcm => exact Fcm.follows_handleNotification crates key event tenants
  | webPush => exact WebPush.follows_handleNotification crates key event tenants

theorem HttpRequester.follows_handleHttp (event : HttpRequest) :
    Follows World.outlet Outlet.take
      (HttpRequestHandler.handleHttp crates.http crates.outputTopic key event) (plan crates key event) := by
  rw [plan]
  cases called : Requester.request crates.http event with
  | none =>
    rw [handleHttp_unbuilt crates.outputTopic key called]
    exact follows_panic fun w => rfl
  | some call =>
    rw [handleHttp_built crates.outputTopic key called]
    refine follows_task (fun w => rfl) fun result w => ?_
    cases result with
    | ok httpResult => rfl
    | error error => cases error <;> rfl

theorem Service.follows_processRequest (service : Service)
    (tenants : Table String (service.handler crates).Entry) (msg : BorrowedMessage) :
    ((processRequest crates.protobuf (service.handler crates) msg).toStep tenants).Follows World.outlet
      Outlet.take (service.plan crates tenants msg) := by
  have quiet : ∀ (record : Option LogRecord), Follows World.outlet Outlet.take
      (⟨fun w => w.logAll record.toList, .nothing⟩ :
        Reaction (service.handler crates).Event (World (service.handler crates).Call)) .silent :=
    fun record => ⟨fun w => rfl, rfl⟩
  obtain ⟨event, push, http, called⟩ | ⟨event, push, http, called⟩ | ⟨record, push, http, called⟩ :=
    processRequest_cases crates.protobuf (service.handler crates) msg
  · rw [called]
    cases service with
    | push service =>
      rw [plan, push]
      exact service.follows_handleNotification crates msg.key event tenants
    | httpRequester =>
      rw [plan, http]
      exact ⟨fun w => rfl, rfl⟩
  · rw [called]
    cases service with
    | push service =>
      rw [plan, push]
      cases service <;> exact follows_nothing fun w => rfl
    | httpRequester =>
      rw [plan, http]
      exact HttpRequester.follows_handleHttp crates msg.key event
  · rw [called]
    cases service with
    | push service =>
      rw [plan, push]
      exact quiet record
    | httpRequester =>
      rw [plan, http]
      exact quiet record

end Handlers

/-! ## No configuration starts a call -/

namespace Apns2

open ApnsHandler

theorem calls_drop (notifier : Notifier) (w : World) : (notifier.drop w).calls = w.calls := by
  rw [Notifier.drop]
  cases notifier.notifierType <;> rfl

theorem calls_deleteNotifier (id : String) (s : Notifiers × World) :
    (deleteNotifier id s).2.calls = s.2.calls := by
  rw [deleteNotifier]
  cases s.1.lookup id with
  | none => rfl
  | some removed => exact calls_drop removed s.2

theorem calls_insertNotifier (s : Notifiers × World) (id : String) (notifier : Notifier) :
    (insertNotifier s id notifier).2.calls = s.2.calls := by
  rw [insertNotifier]
  cases s.1.lookup id with
  | none => rfl
  | some replaced => exact calls_drop replaced s.2

theorem calls_updateToken (clients : ClientOutcomes) (application : Application) (token : IosToken)
    (s : Notifiers × World) : (updateToken clients application token s).2.2.calls = s.2.calls := by
  simp only [updateToken, addTokenNotifier, Notifier.token]
  cases Client.newToken clients token.pkcs8 token.keyId token.teamId (toEndpoint token.endpoint) with
  | error error => rfl
  | ok client => exact calls_insertNotifier _ application.id _

theorem calls_updateCertificate (clients : ClientOutcomes) (application : Application)
    (certificate : IosCertificate) (s : Notifiers × World) :
    (updateCertificate clients application certificate s).2.2.calls = s.2.calls := by
  simp only [updateCertificate, addCertificateNotifier, Notifier.certificate]
  cases Client.newCertificate clients certificate.pkcs12 certificate.password
      (toEndpoint certificate.endpoint) with
  | error error => rfl
  | ok client => exact calls_insertNotifier _ application.id _

theorem calls_finishUpdate (crates : Crates) (application : Application)
    (updated : Except Error Unit × Notifiers × World) :
    (finishUpdate crates application updated).2.calls = updated.2.2.calls := by
  rw [finishUpdate]
  cases updated.1 <;> rfl

end Apns2

theorem Service.calls_handleConfig (crates : Crates) (service : Service)
    (clients : (service.handler crates).Clients) (id : String) (application : Option Application)
    (s : Table String (service.handler crates).Entry × World (service.handler crates).Call) :
    ((service.handler crates).handleConfig clients id application s).2.calls = s.2.calls := by
  cases service with
  | httpRequester => rfl
  | push service =>
    cases service with
    | apns2 =>
      obtain ⟨x, -, called⟩ | ⟨application', token, -, called⟩ | ⟨application', certificate, -, called⟩ :=
        Apns2.handleConfig_cases crates.apns2 clients id application s
      · exact (congrArg (World.calls ·.2) called).trans (Apns2.calls_deleteNotifier x s)
      · exact (congrArg (World.calls ·.2) called).trans
          ((Apns2.calls_finishUpdate _ _ _).trans (Apns2.calls_updateToken clients application' token s))
      · exact (congrArg (World.calls ·.2) called).trans ((Apns2.calls_finishUpdate _ _ _).trans
          (Apns2.calls_updateCertificate clients application' certificate s))
    | fcm =>
      obtain ⟨x, -, called⟩ | ⟨x, apiKey, pairs, -, called⟩ := Fcm.handleConfig_cases id application s
      · refine (congrArg (World.calls ·.2) called).trans ?_
        rw [Fcm.FcmHandler.deleteKey]
        cases s.1.lookup x <;> rfl
      · exact congrArg (World.calls ·.2) called
    | webPush =>
      obtain ⟨x, -, called⟩ | ⟨x, entry, pairs, -, called⟩ := WebPush.handleConfig_cases id application s
      · refine (congrArg (World.calls ·.2) called).trans ?_
        rw [WebPush.WebPushHandler.deleteKey]
        cases s.1.lookup x <;> rfl
      · exact congrArg (World.calls ·.2) called

/-! ## Runs -/

namespace Service

variable (crates : Crates) (service : Service)

theorem table_nextTenants (s : RequestConsumer.State (service.handler crates))
    (input : Input (service.handler crates)) :
    (s.step crates.protobuf input).session.tenants =
      s.session.tenants.apply (service.tenantUpdate crates input) := by
  cases input with
  | item result =>
    cases result with
    | ok msg =>
      obtain ⟨event, -, -, called⟩ | ⟨event, -, -, called⟩ | ⟨record, -, -, called⟩ :=
        processRequest_cases crates.protobuf (service.handler crates) msg <;>
      · simp only [State.step, Session.step, Session.nextTenants, Input.toCall, called]
        cases service <;> rfl
    | error e => cases service <;> rfl
  | config clients id application =>
    cases service with
    | push service => exact service.handleConfig_table crates clients id application _
    | httpRequester => rfl
  | poll task event => cases service <;> rfl

theorem tenantsAfter_take (inputs : List (Input (service.handler crates))) (i : Nat) :
    service.tenantsAfter crates (inputs.take i) = service.tenantsAt crates inputs i :=
  @Table.table_foldl _ _ _ _ _ (fun s : State (service.handler crates) => s.session.tenants) _ _
    (service.table_nextTenants crates) (inputs.take i) (State.start (service.handler crates))

theorem turn_toStep (tenants : Table String (service.handler crates).Entry)
    (input : Input (service.handler crates)) :
    ((input.toCall crates.protobuf (service.handler crates)).toStep tenants).turn = input.turn := by
  cases input with
  | item result =>
    cases result with
    | ok msg =>
      obtain ⟨r, reacts⟩ := service.processRequest_reacts crates tenants msg
      rw [Input.toCall, reacts]
      rfl
    | error e => rfl
  | config clients id application => rfl
  | poll task event => rfl

theorem map_turn_steps (inputs : List (Input (service.handler crates))) :
    (service.steps crates inputs).map Step.turn = inputs.map Input.turn := by
  refine List.ext_getElem? fun i => ?_
  rw [List.getElem?_map, getElem?_steps, List.getElem?_map, Option.map_map]
  exact Option.map_congr fun input _ => service.turn_toStep crates _ input

theorem follows_steps (inputs : List (Input (service.handler crates))) :
    FollowsPlans World.outlet Outlet.take (service.planAt crates inputs) (service.steps crates inputs) := by
  intro i step position
  rw [getElem?_steps, Option.map_eq_some_iff] at position
  obtain ⟨input, atI, rfl⟩ := position
  rw [planAt, atI, tenantsAfter_take]
  cases input with
  | item result =>
    cases result with
    | ok msg => exact service.follows_processRequest crates _ msg
    | error e => exact ⟨fun w => rfl, rfl⟩
  | config clients id application =>
    refine ⟨fun w => ?_, rfl⟩
    have unseen := service.unseen_handleConfig crates clients id application
      (service.tenantsAt crates inputs i, w)
    have calls := service.calls_handleConfig crates clients id application
      (service.tenantsAt crates inputs i, w)
    exact outlet_of_unseen calls unseen
  | poll task event => rfl

/-- As long as no request has ended the service, it has let out what its inputs plan. -/
theorem outlet_of_running {inputs : List (Input (service.handler crates))}
    (running : (handleRequests crates.protobuf (service.handler crates) inputs).session.executor.halted = false) :
    (handleRequests crates.protobuf (service.handler crates) inputs).session.world.outlet =
      (service.outputs crates inputs).foldl Outlet.take World.init.outlet := by
  rw [executor_handleRequests] at running
  have calm := (halted_eq_false_iff _ _).mp running
  rw [Session.world, executor_handleRequests, look_run calm (service.follows_steps crates inputs), map_turn_steps]
  rfl

theorem fatal_iff (input : Input (service.handler crates)) :
    service.fatal crates input = true ↔
      service.panics crates (input.toCall crates.protobuf (service.handler crates)) := by
  cases service with
  | push service => exact iff_of_false Bool.false_ne_true id
  | httpRequester =>
    cases input with
    | item result =>
      cases result with
      | ok msg =>
        rw [Input.toCall, HttpRequester.panics_processRequest_iff]
        simp [fatal, Option.any_eq_true]
      | error e => exact iff_of_false Bool.false_ne_true id
    | config clients name application => exact iff_of_false Bool.false_ne_true id
    | poll task event => exact iff_of_false Bool.false_ne_true id

/-- The inputs before the request that ends the service, or all of them. -/
def alive (inputs : List (Input (service.handler crates))) : List (Input (service.handler crates)) :=
  inputs.takeWhile fun input => !service.fatal crates input

theorem running_of_alive (inputs : List (Input (service.handler crates))) :
    (handleRequests crates.protobuf (service.handler crates)
      (service.alive crates inputs)).session.executor.halted = false := by
  refine (service.running_iff crates _).mpr fun input member panics => ?_
  have alive := List.mem_takeWhile_imp member
  rw [(service.fatal_iff crates input).mpr panics] at alive
  cases alive

theorem outlet_of_fatal {s : Session (service.handler crates)} (running : s.executor.halted = false)
    {call : HandlerCall (service.handler crates)} (panics : service.panics crates call) :
    (s.step call).executor.halted = true ∧ (s.step call).world.outlet = s.world.outlet := by
  obtain ⟨r, reacts⟩ := service.reacts_of_panics crates s.tenants panics
  have left := (service.leaves_eq_panic_iff crates s.tenants reacts).mpr panics
  have stepped : (s.step call).executor = s.executor.step (.react r) := by
    rw [← reacts]
    rfl
  rw [Session.world, stepped, Executor.step_panic running left]
  refine ⟨rfl, ?_⟩
  cases service with
  | push service => exact panics.elim
  | httpRequester =>
    cases call with
    | http key event =>
      have unbuilt := (HttpRequester.request_eq_none_iff crates.http event).mpr panics
      cases reacts.symm.trans
        (congrArg Step.react (HttpRequester.handleHttp_unbuilt crates.outputTopic key unbuilt))
      rfl
    | _ => exact panics.elim

theorem outlet_of_halted {s : Session (service.handler crates)} (halted : s.executor.halted = true)
    (calls : List (HandlerCall (service.handler crates))) :
    (s.run calls).world.outlet = s.world.outlet := by
  rw [Session.world, Session.executor_run]
  refine look_run_halted halted fun effect member w => ?_
  have unseen := service.unseen_background crates member w
  obtain ⟨tenants, call, -, same⟩ := Session.mem_trace member
  cases call with
  | config clients id application =>
    cases same
    exact outlet_of_unseen (service.calls_handleConfig crates clients id application (tenants, w)) unseen
  | notification key event => cases same
  | http key event => cases same
  | poll task event => cases same
  | ignored record => cases same

/-- In every run a service lets out what the inputs plan that come before the request that
    ends it, and nothing after that. -/
theorem outlet_handleRequests (inputs : List (Input (service.handler crates))) :
    (handleRequests crates.protobuf (service.handler crates) inputs).session.world.outlet =
      (service.outputs crates (service.alive crates inputs)).foldl Outlet.take World.init.outlet := by
  have running := service.running_of_alive crates inputs
  rw [← service.outlet_of_running crates running, alive]
  rw [alive, session_handleRequests] at running
  have whole := List.takeWhile_append_dropWhile (p := fun input => !service.fatal crates input) (l := inputs)
  cases rest : inputs.dropWhile fun input => !service.fatal crates input with
  | nil =>
    rw [rest, List.append_nil] at whole
    rw [whole]
  | cons input later =>
    have isFatal := List.head_dropWhile_not (fun input => !service.fatal crates input)
      (l := inputs) (by rw [rest]; exact List.cons_ne_nil _ _)
    simp only [rest, List.head_cons, Bool.not_eq_false'] at isFatal
    have ended := service.outlet_of_fatal crates running ((service.fatal_iff crates input).mp isFatal)
    rw [session_handleRequests, session_handleRequests, ← ended.2, ← outlet_of_halted crates service ended.1
      (later.map (Input.toCall crates.protobuf (service.handler crates)))]
    conv_lhs => rw [← whole, rest, List.map_append, List.map_cons]
    rw [Session.run, List.foldl_append]
    rfl

theorem calls_eq (inputs : List (Input (service.handler crates))) :
    (handleRequests crates.protobuf (service.handler crates) inputs).session.world.calls =
      (service.outputs crates (service.alive crates inputs)).filterMap Output.asked := by
  have outlet := congrArg Outlet.calls (service.outlet_handleRequests crates inputs)
  rw [Outlet.foldl_take] at outlet
  exact outlet

theorem published_eq (inputs : List (Input (service.handler crates))) :
    (handleRequests crates.protobuf (service.handler crates) inputs).session.world.published =
      (service.outputs crates (service.alive crates inputs)).filterMap Output.record := by
  have outlet := congrArg Outlet.published (service.outlet_handleRequests crates inputs)
  rw [Outlet.foldl_take] at outlet
  exact outlet

theorem counter_eq (inputs : List (Input (service.handler crates))) :
    (handleRequests crates.protobuf (service.handler crates) inputs).session.world.metrics.callbacksCounter =
      ((service.outputs crates (service.alive crates inputs)).filterMap Output.label).foldl CounterVec.inc
        .empty := by
  have outlet := congrArg Outlet.counter (service.outlet_handleRequests crates inputs)
  rw [Outlet.foldl_take] at outlet
  exact outlet

end Service

/-- What a service has asked its provider, published and counted is, in this order, what its
    inputs plan: the call of each accepted message at its moment, with what the configurations
    before it have left of its tenant, and the answer to each message when its call ends. -/
theorem outputs_of_every_run (crates : Crates) (service : Service)
    (inputs : List (Input (service.handler crates))) :
    let outputs := service.outputs crates (service.alive crates inputs)
    let w := (handleRequests crates.protobuf (service.handler crates) inputs).session.world
    w.calls = outputs.filterMap Output.asked ∧
      w.published = outputs.filterMap Output.record ∧
      w.metrics.callbacksCounter = (outputs.filterMap Output.label).foldl CounterVec.inc .empty := by
  exact ⟨service.calls_eq crates inputs, service.published_eq crates inputs, service.counter_eq crates inputs⟩

end XorcNotifications
