import XorcNotifications.Common.RequestConsumer
import XorcNotifications.Fcm.Notifier

/-!
# Fcm: producer and handler

`src/fcm/producer.rs` and `src/fcm/consumer.rs`.  `topic` is the output topic of the
configuration, to which the producer publishes.
-/

namespace XorcNotifications.Fcm

open Futures Executors KeyedTables

/-! ## FcmProducer -/

namespace FcmProducer

variable (topic : String)

def handleNoCert (key : Option Bytes) (event : PushNotification) (w : World) : World :=
  let w := w.log .error "No FCM key set for application"
    (event.serialize ++ [("successful", .bool false)])
  let w := w.countCallback "certificate_missing"
  w.publish topic key (.pushResult (.into event .retry))

/-- The label and the response action for an error of the call. -/
def errorAction : FcmError → String × ResponseAction
  | .serverError _ => ("server_error", .retry)
  | .unauthorized => ("unauthorized", .none)
  | .invalidMessage _ => ("invalid_message", .none)

def handleError (key : Option Bytes) (event : PushNotification) (error : FcmError) (w : World) :
    World :=
  let w := w.log .error "Error sending a push notification"
    (event.serialize ++ [("successful", .bool false), ("reason", .str error.debug)])
  let w := w.countCallback (errorAction error).1
  w.publish topic key (.pushResult (.into event (errorAction error).2))

/-- The error `handle_response` looks at: that of the first result. -/
def firstError (response : FcmResponse) : Option ErrorReason :=
  (response.results.bind (·.head?)).bind (·.error)

def handleResponse (key : Option Bytes) (event : PushNotification) (response : FcmResponse)
    (w : World) : World :=
  match firstError response with
  | some error =>
    let w := w.countCallback error.debug
    let w := w.log .error "Error sending a push notification"
      (event.serialize ++ [("successful", .bool false), ("reason", .str error.debug)])
    match error with
    | .notRegistered => w.publish topic key (.pushResult (.into event .unsubscribeEntity))
    | _ => w.publish topic key (.pushResult (.into event .none))
  -- Nothing is counted or logged where there is no error.
  | none => w.publish topic key (.pushResult (.into event .none))

end FcmProducer

/-! ## FcmHandler -/

namespace FcmHandler

abbrev Answer := Except FcmError FcmResponse

abbrev ApiKeys := Table String String

def accepts (event : PushNotification) : Bool := event.hasGoogle

section Notification

variable (crates : Crates) (topic : String)

def onAnswer (key : Option Bytes) (event : PushNotification) (result : Answer) (w : World) : World :=
  let w := w.decInflight
  match result with
  | .ok response => FcmProducer.handleResponse topic key event response w
  | .error error => FcmProducer.handleError topic key event error w

def answer : Future Answer Answer := Future.first some

def handleNotification (apiKeys : ApiKeys) (key : Option Bytes) (event : PushNotification) :
    Reaction Answer World :=
  match apiKeys.lookup event.universeId with
  | some apiKey =>
    { now := fun w => Notifier.notify crates event apiKey w.incInflight
      leaves := .task (answer.map (onAnswer topic key event)) }
  -- The gauge has gone up before the lookup.
  | none =>
    { now := fun w => FcmProducer.handleNoCert topic key event w.incInflight
      leaves := .nothing }

end Notification

def handleHttp (_ : Option Bytes) (_ : HttpRequest) : Reaction Answer World where
  now w := w.log .warn "We don't handle http request events here" []
  leaves := .nothing

/-! ### Tenant configuration -/

def setAppCounter (s : ApiKeys × World) : ApiKeys × World :=
  (s.1, s.2.setNumberOfApplications s.1.size)

def deleteKey (id : String) (s : ApiKeys × World) : ApiKeys × World :=
  match s.1.lookup id with
  | some _ =>
    let s := setAppCounter (s.1.erase id, s.2)
    (s.1, s.2.log .info "Application removed" [("universe", .str id)])
  | none => s

def handleConfig (id : String) (application : Option Application) (s : ApiKeys × World) :
    ApiKeys × World :=
  match application with
  | none => deleteKey id s
  | some application =>
    match application.androidConfig with
    | none => deleteKey application.id s
    | some androidConfig =>
      if androidConfig.enabled = false then deleteKey application.id s
      else
        match androidConfig.fcmApiKey with
        | none => deleteKey application.id s
        | some apiKey =>
          -- From here on the id is that of the application, not the argument.
          let w := s.2.log .info "Updating application configuration"
            (application.serialize ++ [("fcm_api_key", .str apiKey)])
          setAppCounter (s.1.insert application.id apiKey, w)

end FcmHandler

/-- `impl EventHandler for FcmHandler`.  No client is constructed for a tenant. -/
abbrev fcmHandler (crates : Crates) (topic : String) : EventHandler where
  Entry := String
  Clients := Unit
  Event := FcmHandler.Answer
  Call := Message
  accepts := FcmHandler.accepts
  handleNotification := FcmHandler.handleNotification crates topic
  handleHttp := FcmHandler.handleHttp
  handleConfig _ := FcmHandler.handleConfig

end XorcNotifications.Fcm
