import XorcNotifications.Lib.Ledger
import XorcNotifications.Verified.TenantTables
import XorcNotifications.Verified.Sessions

/-!
# What the handlers do to the world

One specification for every handler function, in terms of two quantities: the receipts
of what has been published and the gauge of what is in flight.  A handled event adds its
receipt once, whatever its provider answers, and a configuration touches neither of them,
nor the counter of responses.
-/

namespace XorcNotifications

open Futures Executors KeyedTables

/-! ## Receipts -/

/-- What a published record says about the message it answers.  The last component of
    an HTTP response is whether exactly one of its two outcomes is set. -/
inductive Receipt where
  | pushResult (key : Option Bytes) (header : Option Rpc.Response)
  | httpResponse (key : Option Bytes) (header : Option Rpc.Response) (oneOutcome : Bool)
deriving DecidableEq

def FutureRecord.receipt (record : FutureRecord) : Receipt :=
  match record.payload with
  | .pushResult result => .pushResult record.key result.header
  | .httpResponse response =>
    .httpResponse record.key response.header (response.payload.isSome != response.connectionError.isSome)

def pushReceipt (key : Option Bytes) (event : PushNotification) : Receipt :=
  .pushResult key (some ⟨some "notification.PushResult", some event.getHeader⟩)

def httpReceipt (key : Option Bytes) (event : HttpRequest) : Receipt :=
  .httpResponse key (some ⟨some "http.HttpResponse", some event.getHeader⟩) true

namespace World

variable {Call : Type}

def receipts (w : World Call) : Multiset Receipt := w.published.map FutureRecord.receipt

theorem receipts_of_published {w w' : World Call} (same : w'.published = w.published) :
    w'.receipts = w.receipts := by
  rw [receipts, receipts, same]

theorem receipts_of_pushResult {w w' : World Call} {topic : String} {key : Option Bytes}
    {event : PushNotification} {action : ResponseAction}
    (added : w'.published = w.published ++ [⟨topic, key, .pushResult (.into event action)⟩]) :
    w'.receipts = w.receipts + {pushReceipt key event} := by
  rw [receipts, receipts, added, List.map_append, ← Multiset.coe_add]
  rfl

theorem receipts_of_httpResponse {w w' : World Call} {topic : String} {key : Option Bytes}
    {event : HttpRequest} {result : Except HttpRequester.RequestError HttpRequester.HttpResult}
    (added : w'.published = w.published ++
      [⟨topic, key, .httpResponse (HttpRequester.HttpResponseProducer.toResponse event.getHeader result)⟩]) :
    w'.receipts = w.receipts + {httpReceipt key event} := by
  rw [receipts, receipts, added, List.map_append, ← Multiset.coe_add]
  -- Every result sets one of the two outcomes and leaves the other one unset.
  cases result with
  | ok httpResult => rfl
  | error error => cases error <;> rfl

def inflight (w : World Call) : Int := w.metrics.callbacksInflight

/-- An effect that is seen neither in the records nor in the gauge nor in the counter. -/
structure Unseen (w w' : World Call) : Prop where
  published : w'.published = w.published
  inflight : w'.inflight = w.inflight
  counted : w'.metrics.callbacksCounter = w.metrics.callbacksCounter

theorem Unseen.refl (w : World Call) : Unseen w w := ⟨rfl, rfl, rfl⟩

theorem Unseen.trans {w w' w'' : World Call} (first : Unseen w w') (second : Unseen w' w'') :
    Unseen w w'' :=
  ⟨second.published.trans first.published, second.inflight.trans first.inflight,
    second.counted.trans first.counted⟩

theorem Unseen.of_log {w w' : World Call} {level : LogLevel} {message : String} {pairs : LogPairs}
    (logged : Unseen (w.log level message pairs) w') : Unseen w w' :=
  ⟨logged.published, logged.inflight, logged.counted⟩

end World

open World

/-! ## apns2 -/

namespace Apns2

open ApnsHandler

section Notification

variable (crates : Crates) (topic : String) {notifiers : Notifiers} (key : Option Bytes)
  {event : PushNotification}

theorem receipts_onAnswer (result : Answer) (w : World) :
    (onAnswer crates topic key event result w).receipts = w.receipts + {pushReceipt key event} := by
  cases result with
  | ok response => exact receipts_of_pushResult rfl
  | error error =>
    cases error with
    | responseError response =>
      -- The action depends on the reason, and the receipt does not show it.
      obtain ⟨reason⟩ := response
      cases reason <;> exact receipts_of_pushResult rfl
    | connectionError => exact receipts_of_pushResult rfl
    | other debug => exact receipts_of_pushResult rfl

theorem inflight_onAnswer (result : Answer) (w : World) :
    (onAnswer crates topic key event result w).inflight = w.inflight + -1 := by
  cases result with
  | ok response => rfl
  | error error =>
    cases error with
    | responseError response =>
      obtain ⟨reason⟩ := response
      cases reason <;> rfl
    | connectionError => rfl
    | other debug => rfl

theorem handleNotification_known {notifier : Notifier}
    (known : notifiers.lookup event.universeId = some notifier) :
    handleNotification crates topic notifiers key event =
      { now := fun w => notifier.notify crates event w.incInflight
        leaves := .task (answer.map (onAnswer crates topic key event)) } := by
  simp only [handleNotification, known]

theorem handleNotification_unknown (unknown : notifiers.lookup event.universeId = none) :
    handleNotification crates topic notifiers key event =
      { now := fun w =>
          ApnsProducer.handleFatal crates topic key event .connectionError w.incInflight
        leaves := .nothing } := by
  simp only [handleNotification, unknown]

variable (notifiers event) in
theorem addsOnce_handleNotification :
    AddsOnce receipts (handleNotification crates topic notifiers key event) {pushReceipt key event} := by
  cases found : notifiers.lookup event.universeId with
  | none =>
    rw [handleNotification_unknown crates topic key found]
    exact addsOnce_nothing fun w => receipts_of_pushResult rfl
  | some notifier =>
    rw [handleNotification_known crates topic key found]
    exact addsOnce_task (fun w => rfl) (receipts_onAnswer crates topic key)

variable (notifiers event) in
theorem handleNotification_ne_panic :
    (handleNotification crates topic notifiers key event).leaves ≠ .panic := by
  intro panics
  cases found : notifiers.lookup event.universeId with
  | none =>
    rw [handleNotification_unknown crates topic key found] at panics
    cases panics
  | some notifier =>
    rw [handleNotification_known crates topic key found] at panics
    cases panics

variable (notifiers event) in
theorem signal_handleNotification :
    (handleNotification crates topic notifiers key event).leaves.signal =
      (notifiers.lookup event.universeId).map fun _ => answer.map fun _ => () := by
  cases found : notifiers.lookup event.universeId with
  | none =>
    rw [handleNotification_unknown crates topic key found]
    rfl
  | some notifier =>
    rw [handleNotification_known crates topic key found]
    exact Leaves.signal_task answer _

/-- With a tenant the gauge counts the call. -/
theorem countsTask_handleNotification (known : notifiers.lookup event.universeId ≠ none) :
    CountsTask inflight (handleNotification crates topic notifiers key event) := by
  obtain ⟨notifier, found⟩ := Option.ne_none_iff_exists'.mp known
  rw [handleNotification_known crates topic key found]
  exact countsTask_task (fun w => rfl) (inflight_onAnswer crates topic key)

/-- Where there is no tenant, the gauge goes up and nothing is called. -/
theorem leaks_handleNotification (unknown : notifiers.lookup event.universeId = none) (w : World) :
    ((handleNotification crates topic notifiers key event).now w).inflight = w.inflight + 1 ∧
      ((handleNotification crates topic notifiers key event).now w).calls = w.calls := by
  rw [handleNotification_unknown crates topic key unknown]
  exact ⟨rfl, rfl⟩

theorem calls_handleNotification (known : notifiers.lookup event.universeId ≠ none) (w : World) :
    ((handleNotification crates topic notifiers key event).now w).calls.length = w.calls.length + 1 := by
  obtain ⟨notifier, found⟩ := Option.ne_none_iff_exists'.mp known
  rw [handleNotification_known crates topic key found]
  exact List.length_append

end Notification

theorem unseen_drop (notifier : Notifier) (w : World) : Unseen w (notifier.drop w) := by
  rw [Notifier.drop]
  cases notifier.notifierType <;> exact ⟨rfl, rfl, rfl⟩

theorem unseen_deleteNotifier (id : String) (s : Notifiers × World) :
    Unseen s.2 (deleteNotifier id s).2 := by
  rw [deleteNotifier]
  cases s.1.lookup id with
  | none => exact .refl s.2
  | some removed =>
    have dropped := unseen_drop removed s.2
    exact ⟨dropped.published, dropped.inflight, dropped.counted⟩

theorem unseen_insertNotifier (s : Notifiers × World) (id : String) (notifier : Notifier) :
    Unseen s.2 (insertNotifier s id notifier).2 := by
  rw [insertNotifier]
  cases s.1.lookup id with
  | none => exact .refl s.2
  | some replaced => exact unseen_drop replaced s.2

theorem unseen_addTokenNotifier (clients : ClientOutcomes) (token : IosToken) (endpoint : Endpoint)
    (id apnsTopic : String) (s : Notifiers × World) :
    Unseen s.2 (addTokenNotifier clients token endpoint id apnsTopic s).2.2 := by
  rw [addTokenNotifier, Notifier.token]
  cases Client.newToken clients token.pkcs8 token.keyId token.teamId endpoint with
  | error error => exact .refl s.2
  | ok client =>
    have started : Unseen s.2 (s.2.addTokenConsumers 1) := ⟨rfl, rfl, rfl⟩
    exact started.trans (unseen_insertNotifier (s.1, _) id _)

theorem unseen_addCertificateNotifier (clients : ClientOutcomes) (certificate : IosCertificate)
    (endpoint : Endpoint) (id apnsTopic : String) (s : Notifiers × World) :
    Unseen s.2 (addCertificateNotifier clients certificate endpoint id apnsTopic s).2.2 := by
  rw [addCertificateNotifier, Notifier.certificate]
  cases Client.newCertificate clients certificate.pkcs12 certificate.password endpoint with
  | error error => exact .refl s.2
  | ok client =>
    have started : Unseen s.2 (s.2.addCertificateConsumers 1) := ⟨rfl, rfl, rfl⟩
    exact started.trans (unseen_insertNotifier (s.1, _) id _)

theorem unseen_updateToken (clients : ClientOutcomes) (application : Application) (token : IosToken)
    (s : Notifiers × World) : Unseen s.2 (updateToken clients application token s).2.2 :=
  .of_log (unseen_addTokenNotifier clients token _ application.id token.apnsTopic (s.1, _))

theorem unseen_updateCertificate (clients : ClientOutcomes) (application : Application)
    (certificate : IosCertificate) (s : Notifiers × World) :
    Unseen s.2 (updateCertificate clients application certificate s).2.2 :=
  .of_log (unseen_addCertificateNotifier clients certificate _ application.id certificate.apnsTopic (s.1, _))

theorem unseen_finishUpdate (crates : Crates) (application : Application)
    (updated : Except Error Unit × Notifiers × World) :
    Unseen updated.2.2 (finishUpdate crates application updated).2 := by
  rw [finishUpdate]
  cases updated.1 <;> exact ⟨rfl, rfl, rfl⟩

theorem unseen_handleConfig (crates : Crates) (clients : ClientOutcomes) (id : String)
    (application : Option Application) (s : Notifiers × World) :
    Unseen s.2 (handleConfig crates clients id application s).2 := by
  rcases handleConfig_cases crates clients id application s with
    ⟨x, -, called⟩ | ⟨application', token, -, called⟩ | ⟨application', certificate, -, called⟩
  · rw [called]
    exact unseen_deleteNotifier x s
  · rw [called]
    exact (unseen_updateToken clients application' token s).trans (unseen_finishUpdate crates _ _)
  · rw [called]
    exact (unseen_updateCertificate clients application' certificate s).trans
      (unseen_finishUpdate crates _ _)

end Apns2

/-! ## fcm -/

namespace Fcm

open FcmHandler

theorem receipts_onAnswer (topic : String) (key : Option Bytes) (event : PushNotification)
    (result : Answer) (w : World) :
    (onAnswer topic key event result w).receipts = w.receipts + {pushReceipt key event} := by
  cases result with
  | error error => exact receipts_of_pushResult rfl
  | ok response =>
    cases first : FcmProducer.firstError response with
    | none =>
      simp only [onAnswer, FcmProducer.handleResponse, first]
      exact receipts_of_pushResult rfl
    | some reason =>
      cases reason <;>
      · simp only [onAnswer, FcmProducer.handleResponse, first]
        exact receipts_of_pushResult rfl

theorem inflight_onAnswer (topic : String) (key : Option Bytes) (event : PushNotification)
    (result : Answer) (w : World) : (onAnswer topic key event result w).inflight = w.inflight + -1 := by
  cases result with
  | error error => rfl
  | ok response =>
    cases first : FcmProducer.firstError response with
    | none =>
      simp only [onAnswer, FcmProducer.handleResponse, first]
      rfl
    | some reason =>
      cases reason <;>
      · simp only [onAnswer, FcmProducer.handleResponse, first]
        rfl

section Notification

variable (crates : Crates) (topic : String) {apiKeys : ApiKeys} (key : Option Bytes)
  {event : PushNotification}

theorem handleNotification_known {apiKey : String}
    (known : apiKeys.lookup event.universeId = some apiKey) :
    handleNotification crates topic apiKeys key event =
      { now := fun w => Notifier.notify crates event apiKey w.incInflight
        leaves := .task (answer.map (onAnswer topic key event)) } := by
  simp only [handleNotification, known]

theorem handleNotification_unknown (unknown : apiKeys.lookup event.universeId = none) :
    handleNotification crates topic apiKeys key event =
      { now := fun w => FcmProducer.handleNoCert topic key event w.incInflight
        leaves := .nothing } := by
  simp only [handleNotification, unknown]

variable (apiKeys event) in
theorem addsOnce_handleNotification :
    AddsOnce receipts (handleNotification crates topic apiKeys key event) {pushReceipt key event} := by
  cases found : apiKeys.lookup event.universeId with
  | none =>
    rw [handleNotification_unknown crates topic key found]
    exact addsOnce_nothing fun w => receipts_of_pushResult rfl
  | some apiKey =>
    rw [handleNotification_known crates topic key found]
    exact addsOnce_task (fun w => rfl) (receipts_onAnswer topic key event)

variable (apiKeys event) in
theorem handleNotification_ne_panic :
    (handleNotification crates topic apiKeys key event).leaves ≠ .panic := by
  intro panics
  cases found : apiKeys.lookup event.universeId with
  | none =>
    rw [handleNotification_unknown crates topic key found] at panics
    cases panics
  | some apiKey =>
    rw [handleNotification_known crates topic key found] at panics
    cases panics

variable (apiKeys event) in
theorem signal_handleNotification :
    (handleNotification crates topic apiKeys key event).leaves.signal =
      (apiKeys.lookup event.universeId).map fun _ => answer.map fun _ => () := by
  cases found : apiKeys.lookup event.universeId with
  | none =>
    rw [handleNotification_unknown crates topic key found]
    rfl
  | some apiKey =>
    rw [handleNotification_known crates topic key found]
    exact Leaves.signal_task answer _

/-- With a tenant the gauge counts the call. -/
theorem countsTask_handleNotification (known : apiKeys.lookup event.universeId ≠ none) :
    CountsTask inflight (handleNotification crates topic apiKeys key event) := by
  obtain ⟨apiKey, found⟩ := Option.ne_none_iff_exists'.mp known
  rw [handleNotification_known crates topic key found]
  exact countsTask_task (fun w => rfl) (inflight_onAnswer topic key event)

/-- Where there is no tenant, the gauge goes up and nothing is called. -/
theorem leaks_handleNotification (unknown : apiKeys.lookup event.universeId = none) (w : World) :
    ((handleNotification crates topic apiKeys key event).now w).inflight = w.inflight + 1 ∧
      ((handleNotification crates topic apiKeys key event).now w).calls = w.calls := by
  rw [handleNotification_unknown crates topic key unknown]
  exact ⟨rfl, rfl⟩

theorem calls_handleNotification (known : apiKeys.lookup event.universeId ≠ none) (w : World) :
    ((handleNotification crates topic apiKeys key event).now w).calls.length = w.calls.length + 1 := by
  obtain ⟨apiKey, found⟩ := Option.ne_none_iff_exists'.mp known
  rw [handleNotification_known crates topic key found]
  exact List.length_append

end Notification

theorem unseen_deleteKey (id : String) (s : ApiKeys × World) : Unseen s.2 (deleteKey id s).2 := by
  rw [deleteKey]
  cases s.1.lookup id <;> exact ⟨rfl, rfl, rfl⟩

theorem unseen_handleConfig (id : String) (application : Option Application) (s : ApiKeys × World) :
    Unseen s.2 (handleConfig id application s).2 := by
  rcases handleConfig_cases id application s with ⟨x, -, called⟩ | ⟨x, apiKey, pairs, -, called⟩
  · rw [called]
    exact unseen_deleteKey x s
  · rw [called]
    exact ⟨rfl, rfl, rfl⟩

end Fcm

/-! ## web_push -/

namespace WebPush

open WebPushHandler

theorem receipts_onAnswer (crates : Crates) (topic : String) (key : Option Bytes)
    (event : PushNotification) (result : Answer) (w : World) :
    (onAnswer crates topic key event result w).receipts = w.receipts + {pushReceipt key event} := by
  cases result <;> exact receipts_of_pushResult rfl

theorem inflight_onAnswer (crates : Crates) (topic : String) (key : Option Bytes)
    (event : PushNotification) (result : Answer) (w : World) :
    (onAnswer crates topic key event result w).inflight = w.inflight + -1 := by
  cases result <;> rfl

theorem unseen_notify (crates : Crates) (event : PushNotification) (fcmApiKey : Option String)
    (w : World) : Unseen w (Notifier.notify crates event fcmApiKey w) := by
  rw [Notifier.notify]
  cases Notifier.buildMessage crates event fcmApiKey <;> exact ⟨rfl, rfl, rfl⟩

section Notification

variable (crates : Crates) (topic : String) {fcmApiKeys : FcmApiKeys} (key : Option Bytes)
  {event : PushNotification}

theorem handleNotification_known {entity : ApiKey}
    (known : fcmApiKeys.lookup event.universeId = some entity) :
    handleNotification crates topic fcmApiKeys key event =
      { now := fun w => Notifier.notify crates event entity.fcmApiKey w.incInflight
        leaves := .task
          ((Notifier.answer crates event entity.fcmApiKey).map (onAnswer crates topic key event)) } := by
  simp only [handleNotification, known]

theorem handleNotification_unknown (unknown : fcmApiKeys.lookup event.universeId = none) :
    handleNotification crates topic fcmApiKeys key event =
      { now := fun w => WebPushProducer.handleNoCert topic key event w
        leaves := .nothing } := by
  simp only [handleNotification, unknown]

variable (fcmApiKeys event) in
theorem addsOnce_handleNotification :
    AddsOnce receipts (handleNotification crates topic fcmApiKeys key event)
      {pushReceipt key event} := by
  cases found : fcmApiKeys.lookup event.universeId with
  | none =>
    rw [handleNotification_unknown crates topic key found]
    exact addsOnce_nothing fun w => receipts_of_pushResult rfl
  | some entity =>
    rw [handleNotification_known crates topic key found]
    refine addsOnce_task (fun w => ?_) (receipts_onAnswer crates topic key event)
    exact receipts_of_published (unseen_notify crates event entity.fcmApiKey w.incInflight).published

variable (fcmApiKeys event) in
theorem handleNotification_ne_panic :
    (handleNotification crates topic fcmApiKeys key event).leaves ≠ .panic := by
  intro panics
  cases found : fcmApiKeys.lookup event.universeId with
  | none =>
    rw [handleNotification_unknown crates topic key found] at panics
    cases panics
  | some entity =>
    rw [handleNotification_known crates topic key found] at panics
    cases panics

variable (fcmApiKeys event) in
theorem signal_handleNotification :
    (handleNotification crates topic fcmApiKeys key event).leaves.signal =
      (fcmApiKeys.lookup event.universeId).map fun entity =>
        (Notifier.answer crates event entity.fcmApiKey).map fun _ => () := by
  cases found : fcmApiKeys.lookup event.universeId with
  | none =>
    rw [handleNotification_unknown crates topic key found]
    rfl
  | some entity =>
    rw [handleNotification_known crates topic key found]
    exact Leaves.signal_task (Notifier.answer crates event entity.fcmApiKey) _

variable (fcmApiKeys event) in
/-- Here the gauge goes up after the lookup, so that it counts the call either way. -/
theorem countsTask_handleNotification :
    CountsTask inflight (handleNotification crates topic fcmApiKeys key event) := by
  cases found : fcmApiKeys.lookup event.universeId with
  | none =>
    rw [handleNotification_unknown crates topic key found]
    exact countsTask_nothing fun w => rfl
  | some entity =>
    rw [handleNotification_known crates topic key found]
    refine countsTask_task (fun w => ?_) (inflight_onAnswer crates topic key event)
    exact (unseen_notify crates event entity.fcmApiKey w.incInflight).inflight

/-- Where the message cannot be built, the gauge goes up and nothing is called. -/
theorem leaks_handleNotification {entity : ApiKey} {error : WebPushError}
    (known : fcmApiKeys.lookup event.universeId = some entity)
    (unbuilt : Notifier.buildMessage crates event entity.fcmApiKey = .error error) (w : World) :
    ((handleNotification crates topic fcmApiKeys key event).now w).inflight = w.inflight + 1 ∧
      ((handleNotification crates topic fcmApiKeys key event).now w).calls = w.calls := by
  rw [handleNotification_known crates topic key known]
  simp only [Notifier.notify, unbuilt]
  exact ⟨rfl, rfl⟩

theorem calls_handleNotification {entity : ApiKey} {message : WebPushMessage}
    (known : fcmApiKeys.lookup event.universeId = some entity)
    (built : Notifier.buildMessage crates event entity.fcmApiKey = .ok message) (w : World) :
    ((handleNotification crates topic fcmApiKeys key event).now w).calls.length = w.calls.length + 1 := by
  rw [handleNotification_known crates topic key known]
  simp only [Notifier.notify, built]
  exact List.length_append

end Notification

theorem unseen_deleteKey (id : String) (s : FcmApiKeys × World) : Unseen s.2 (deleteKey id s).2 := by
  rw [deleteKey]
  cases s.1.lookup id <;> exact ⟨rfl, rfl, rfl⟩

theorem unseen_handleConfig (id : String) (application : Option Application) (s : FcmApiKeys × World) :
    Unseen s.2 (handleConfig id application s).2 := by
  rcases handleConfig_cases id application s with ⟨x, -, called⟩ | ⟨x, entry, pairs, -, called⟩
  · rw [called]
    exact unseen_deleteKey x s
  · rw [called]
    exact ⟨rfl, rfl, rfl⟩

end WebPush

/-! ## http_requester -/

namespace HttpRequester

open HttpRequestHandler

theorem receipts_onResult (topic : String) (key : Option Bytes) (event : HttpRequest)
    (result : Except RequestError HttpResult) (w : World) :
    (onResult topic key event result w).receipts = w.receipts + {httpReceipt key event} :=
  receipts_of_httpResponse rfl

theorem handleHttp_built {crates : Crates} (topic : String) (key : Option Bytes) {event : HttpRequest}
    {call : Call} (called : Requester.request crates event = some call) :
    handleHttp crates topic key event =
      { now := fun w => w.incInflight.startCall call
        leaves := .task (Requester.exchange.map (onResult topic key event)) } := by
  simp only [handleHttp, called]

/-- The `unwrap` of a request that has not been built ends the reaction, after the gauge has
    gone up. -/
theorem handleHttp_unbuilt {crates : Crates} (topic : String) (key : Option Bytes)
    {event : HttpRequest} (unbuilt : Requester.request crates event = none) :
    handleHttp crates topic key event = { now := fun w => w.incInflight, leaves := .panic } := by
  simp only [handleHttp, unbuilt]

theorem addsOnce_handleHttp (crates : Crates) (topic : String) (key : Option Bytes)
    (event : HttpRequest) :
    AddsOnce receipts (handleHttp crates topic key event) {httpReceipt key event} := by
  cases called : Requester.request crates event with
  | none =>
    rw [handleHttp_unbuilt topic key called]
    exact addsOnce_panic fun w => rfl
  | some call =>
    rw [handleHttp_built topic key called]
    exact addsOnce_task (fun w => rfl) (receipts_onResult topic key event)

/-- Whether the `http` crate accepts every part of the request. -/
def buildable (crates : Crates) (event : HttpRequest) : Bool :=
  (event.headers.entries.all fun header =>
    crates.validHeaderName header.1 && crates.validHeaderValue header.2) &&
  crates.validUri
    (if event.params.isEmpty then event.uri else Requester.uriWithParams event.uri event.params)

namespace Builder

variable (crates : Crates) (builder : Builder)

theorem isOk_header (name value : String) :
    Except.isOk (builder.header crates name value) =
      (Except.isOk builder && crates.validHeaderName name && crates.validHeaderValue value) := by
  cases builder with
  | error e => rfl
  | ok parts =>
    simp only [header, Except.bind]
    cases crates.validHeaderName name <;> cases crates.validHeaderValue value <;> rfl

theorem isOk_uri (uri : String) :
    Except.isOk (builder.uri crates uri) = (Except.isOk builder && crates.validUri uri) := by
  cases builder with
  | error e => rfl
  | ok parts =>
    simp only [Builder.uri, Except.bind]
    cases crates.validUri uri <;> rfl

theorem isOk_body (body : Bytes) : Except.isOk (builder.body body) = Except.isOk builder := by
  cases builder <;> rfl

/-- An invalid header stays with the builder to the end. -/
theorem isOk_headers (entries : List (String × String)) :
    Except.isOk (entries.foldl
        (fun (builder : Builder) header => builder.header crates header.1 header.2) builder) =
      (Except.isOk builder && entries.all fun header =>
        crates.validHeaderName header.1 && crates.validHeaderValue header.2) := by
  induction entries generalizing builder with
  | nil => rw [List.foldl_nil, List.all_nil, Bool.and_true]
  | cons header entries inductionHypothesis =>
    rw [List.foldl_cons, inductionHypothesis, isOk_header, List.all_cons]
    simp only [Bool.and_assoc]

end Builder

theorem isOk_buildRequest (crates : Crates) (event : HttpRequest) :
    Except.isOk (Requester.buildRequest crates event) = buildable crates event := by
  rw [Requester.buildRequest, buildable]
  simp only [Builder.isOk_body]
  split <;>
  · rw [Builder.isOk_uri, Builder.isOk_headers]
    rfl

theorem request_eq_none_iff (crates : Crates) (event : HttpRequest) :
    Requester.request crates event = none ↔ buildable crates event = false := by
  rw [← isOk_buildRequest]
  rw [Requester.request]
  cases Requester.buildRequest crates event with
  | error e => exact ⟨fun _ => rfl, fun _ => rfl⟩
  | ok request => exact ⟨fun none => (nomatch none), fun failed => (nomatch failed)⟩

theorem signal_handleHttp (crates : Crates) (topic : String) (key : Option Bytes)
    (event : HttpRequest) :
    (handleHttp crates topic key event).leaves.signal =
      (Requester.request crates event).map fun _ => Requester.exchange.map fun _ => () := by
  cases called : Requester.request crates event with
  | none =>
    rw [handleHttp_unbuilt topic key called]
    rfl
  | some call =>
    rw [handleHttp_built topic key called]
    exact Leaves.signal_task Requester.exchange _

theorem countsTask_handleHttp {crates : Crates} (topic : String) (key : Option Bytes)
    {event : HttpRequest} (built : buildable crates event = true) :
    CountsTask inflight (handleHttp crates topic key event) := by
  cases called : Requester.request crates event with
  | none =>
    rw [(request_eq_none_iff crates event).mp called] at built
    cases built
  | some call =>
    rw [handleHttp_built topic key called]
    exact countsTask_task (fun w => rfl) (fun result w => rfl)

theorem calls_handleHttp {crates : Crates} (topic : String) (key : Option Bytes)
    {event : HttpRequest} (built : buildable crates event = true) (w : World) :
    ((handleHttp crates topic key event).now w).calls.length = w.calls.length + 1 := by
  cases called : Requester.request crates event with
  | none =>
    rw [(request_eq_none_iff crates event).mp called] at built
    cases built
  | some call =>
    rw [handleHttp_built topic key called]
    exact List.length_append

theorem handleHttp_leaves_panic_iff (crates : Crates) (topic : String) (key : Option Bytes)
    (event : HttpRequest) :
    (handleHttp crates topic key event).leaves = .panic ↔ buildable crates event = false := by
  rw [← request_eq_none_iff]
  cases called : Requester.request crates event with
  | none =>
    rw [handleHttp_unbuilt topic key called]
    exact iff_of_true rfl rfl
  | some call =>
    rw [handleHttp_built topic key called]
    exact iff_of_false (fun panics => nomatch panics) (fun unbuilt => nomatch unbuilt)

end HttpRequester

/-! ## All services -/

theorem Service.unseen_handleConfig (crates : Crates) (service : Service)
    (clients : (service.handler crates).Clients) (id : String) (application : Option Application)
    (s : Table String (service.handler crates).Entry × World (service.handler crates).Call) :
    Unseen s.2 ((service.handler crates).handleConfig clients id application s).2 := by
  cases service with
  | push service =>
    cases service with
    | apns2 => exact Apns2.unseen_handleConfig crates.apns2 clients id application s
    | fcm => exact Fcm.unseen_handleConfig id application s
    | webPush => exact WebPush.unseen_handleConfig id application s
  | httpRequester => exact .refl s.2

/-- Only configurations come from the background. -/
theorem Service.unseen_background (crates : Crates) (service : Service)
    {s : Session (service.handler crates)} {calls : List (HandlerCall (service.handler crates))}
    {effect : World (service.handler crates).Call → World (service.handler crates).Call}
    (member : .background effect ∈ s.trace calls) (w : World (service.handler crates).Call) :
    Unseen w (effect w) := by
  obtain ⟨tenants, call, -, same⟩ := Session.mem_trace member
  cases call with
  | config clients id application =>
    cases same
    exact service.unseen_handleConfig crates clients id application (tenants, w)
  | notification key event => cases same
  | http key event => cases same
  | poll task event => cases same
  | ignored record => cases same

/-- The one call that ends in a panic: an HTTP request that cannot be built. -/
def Service.panics (crates : Crates) : (service : Service) → HandlerCall (service.handler crates) → Prop
  | .httpRequester, .http _ event => HttpRequester.buildable crates.http event = false
  | _, _ => False

theorem PushService.handleNotification_ne_panic (crates : Crates) (service : PushService)
    (tenants : Table String (service.handler crates).Entry) (key : Option Bytes)
    (event : PushNotification) :
    ((service.handler crates).handleNotification tenants key event).leaves ≠ .panic := by
  cases service with
  | apns2 => exact Apns2.handleNotification_ne_panic crates.apns2 crates.outputTopic tenants key event
  | fcm => exact Fcm.handleNotification_ne_panic crates.fcm crates.outputTopic tenants key event
  | webPush =>
    exact WebPush.handleNotification_ne_panic crates.webPush crates.outputTopic tenants key event

theorem Service.reacts_of_panics (crates : Crates) (service : Service)
    (tenants : Table String (service.handler crates).Entry) {call : HandlerCall (service.handler crates)}
    (panics : service.panics crates call) : ∃ r, call.toStep tenants = .react r := by
  cases service with
  | push service => exact panics.elim
  | httpRequester =>
    cases call with
    | http key event => exact ⟨_, rfl⟩
    | _ => exact panics.elim

theorem Service.leaves_eq_panic_iff (crates : Crates) (service : Service)
    (tenants : Table String (service.handler crates).Entry) {call : HandlerCall (service.handler crates)}
    {r : Reaction (service.handler crates).Event (World (service.handler crates).Call)}
    (reacts : call.toStep tenants = .react r) : r.leaves = .panic ↔ service.panics crates call := by
  cases call with
  | notification key event =>
    cases reacts
    cases service with
    | push service =>
      exact iff_of_false (service.handleNotification_ne_panic crates tenants key event) id
    | httpRequester => exact iff_of_false (fun panics => nomatch panics) id
  | http key event =>
    cases reacts
    cases service with
    | push service => cases service <;> exact iff_of_false (fun panics => nomatch panics) id
    | httpRequester =>
      exact HttpRequester.handleHttp_leaves_panic_iff crates.http crates.outputTopic key event
  | ignored record =>
    cases reacts
    cases service <;> exact iff_of_false (fun panics => nomatch panics) id
  | config clients id application => cases reacts
  | poll task event => cases reacts

end XorcNotifications
