import XorcNotifications.Common.RequestConsumer
import XorcNotifications.Apns2.Notifier

/-!
# Apns2: producer and handler

`src/apns2/producer.rs` and `src/apns2/consumer.rs`.  `topic` is the output topic of
the configuration, to which the producer publishes.
-/

namespace XorcNotifications.Apns2

open Futures Executors KeyedTables

/-! ## ApnsProducer -/

namespace ApnsProducer

variable (crates : Crates) (topic : String)

def handleOk (key : Option Bytes) (event : PushNotification) (w : World) : World :=
  let w := w.countCallback "success"
  let w := w.log .info "Successfully sent a push notification"
    (event.serialize ++ [("successful", .bool true)])
  w.publish topic key (.pushResult (.into event .none))

def responseAction : ErrorReason → ResponseAction
  | .unregistered | .deviceTokenNotForTopic | .badDeviceToken => .unsubscribeEntity
  | .internalServerError | .shutdown | .serviceUnavailable | .expiredProviderToken | .forbidden => .retry
  | .other _ => .none

def handleErr (key : Option Bytes) (event : PushNotification) (response : Response) (w : World) :
    World :=
  let w := w.log .error "Error sending a push notification" (event.serialize ++
    [("successful", .bool false),
      ("reason", match response.error with | some reason => .str reason.debug | none => .none)])
  match response.error with
  | some reason =>
    let w := w.countCallback (crates.toSnakeCase reason.debug)
    w.publish topic key (.pushResult (.into event (responseAction reason)))
  | none =>
    let w := w.countCallback "Unknown"
    w.publish topic key (.pushResult (.into event .none))

def handleFatal (key : Option Bytes) (event : PushNotification) (error : Error) (w : World) : World :=
  let w := w.countCallback (crates.toSnakeCase (crates.debugError error))
  w.publish topic key (.pushResult (.into event .retry))

end ApnsProducer

/-! ## ApnsHandler -/

namespace ApnsHandler

abbrev Answer := Except Error Response

abbrev Notifiers := Table String Notifier

def accepts (event : PushNotification) : Bool := event.hasApple

section Notification

variable (crates : Crates) (topic : String)

/-- The closure that runs when the call has completed. -/
def onAnswer (key : Option Bytes) (event : PushNotification) (result : Answer) (w : World) : World :=
  let w := w.decInflight
  -- An answer of APNs with an error body, before any other error.
  match result with
  | .ok _ => ApnsProducer.handleOk topic key event w
  | .error (.responseError e) => ApnsProducer.handleErr crates topic key event e w
  | .error e => ApnsProducer.handleFatal crates topic key event e w

def answer : Future Answer Answer := Future.first some

def handleNotification (notifiers : Notifiers) (key : Option Bytes) (event : PushNotification) :
    Reaction Answer World :=
  match notifiers.lookup event.universeId with
  | some notifier =>
    { now := fun w => notifier.notify crates event w.incInflight
      leaves := .task (answer.map (onAnswer crates topic key event)) }
  -- The gauge has gone up before the lookup.
  | none =>
    { now := fun w =>
        ApnsProducer.handleFatal crates topic key event .connectionError w.incInflight
      leaves := .nothing }

end Notification

def handleHttp (_ : Option Bytes) (_ : HttpRequest) : Reaction Answer World where
  now w := w.log .warn "We don't handle http request events here" []
  leaves := .nothing

/-! ### Tenant configuration -/

def setAppCounter (s : Notifiers × World) : Notifiers × World :=
  (s.1, s.2.setNumberOfApplications s.1.size)

/-- `insert` into the map; the notifier it replaces is dropped. -/
def insertNotifier (s : Notifiers × World) (applicationId : String) (notifier : Notifier) :
    Notifiers × World :=
  (s.1.insert applicationId notifier,
    match s.1.lookup applicationId with
    | some replaced => replaced.drop s.2
    | none => s.2)

def addCertificateNotifier (clients : ClientOutcomes) (certificate : IosCertificate)
    (endpoint : Endpoint) (applicationId apnsTopic : String) (s : Notifiers × World) :
    Except Error Unit × Notifiers × World :=
  -- `?` returns before the table is locked.
  match Notifier.certificate clients certificate.pkcs12 certificate.password endpoint apnsTopic s.2 with
  | (.error error, w) => (.error error, s.1, w)
  | (.ok notifier, w) => (.ok (), insertNotifier (s.1, w) applicationId notifier)

def addTokenNotifier (clients : ClientOutcomes) (token : IosToken) (endpoint : Endpoint)
    (applicationId apnsTopic : String) (s : Notifiers × World) :
    Except Error Unit × Notifiers × World :=
  match Notifier.token clients token.pkcs8 token.keyId token.teamId endpoint apnsTopic s.2 with
  | (.error error, w) => (.error error, s.1, w)
  | (.ok notifier, w) => (.ok (), insertNotifier (s.1, w) applicationId notifier)

def deleteNotifier (id : String) (s : Notifiers × World) : Notifiers × World :=
  match s.1.lookup id with
  | some removed =>
    -- The removed notifier is dropped with the condition, before the counter is set.
    let s := setAppCounter (s.1.erase id, removed.drop s.2)
    (s.1, s.2.log .warn "Application removed" [("universe", .str id)])
  | none => s

def toEndpoint : ConnectionEndpoint → Endpoint
  | .production => .production
  | .sandbox => .sandbox

/-- The connection of an enabled application that has a token. -/
def updateToken (clients : ClientOutcomes) (application : Application) (tokenConfig : IosToken)
    (s : Notifiers × World) : Except Error Unit × Notifiers × World :=
  let endpoint := toEndpoint tokenConfig.endpoint
  let w := s.2.log .info "Updating application configuration" (application.serialize ++
    [("connection_type", .str "token"), ("team_id", .str tokenConfig.teamId),
      ("key_id", .str tokenConfig.keyId), ("apns_topic", .str tokenConfig.apnsTopic),
      ("endpoint", .str endpoint.debug)])
  addTokenNotifier clients tokenConfig endpoint application.id tokenConfig.apnsTopic (s.1, w)

/-- The connection of an enabled application that has a certificate and no token. -/
def updateCertificate (clients : ClientOutcomes) (application : Application)
    (certConfig : IosCertificate) (s : Notifiers × World) : Except Error Unit × Notifiers × World :=
  let endpoint := toEndpoint certConfig.endpoint
  let w := s.2.log .info "Updating application configuration" (application.serialize ++
    [("connection_type", .str "certificate"), ("apns_topic", .str certConfig.apnsTopic),
      ("endpoint", .str endpoint.debug)])
  addCertificateNotifier clients certConfig endpoint application.id certConfig.apnsTopic (s.1, w)

/-- The end of `handle_config`: the counter is set whether or not the update succeeded. -/
def finishUpdate (crates : Crates) (application : Application)
    (updated : Except Error Unit × Notifiers × World) : Notifiers × World :=
  let s := setAppCounter updated.2
  match updated.1 with
  | .error error =>
    (s.1, s.2.log .error "Error connecting to APNs"
      (application.serialize ++ [("error", .str (crates.debugError error))]))
  | .ok () => s

def handleConfig (crates : Crates) (clients : ClientOutcomes) (id : String)
    (application : Option Application) (s : Notifiers × World) : Notifiers × World :=
  match application with
  | none => deleteNotifier id s
  | some application =>
    match application.iosConfig with
    | none => deleteNotifier application.id s
    | some iosConfig =>
      if iosConfig.enabled = false then deleteNotifier application.id s
      else
        -- A token takes precedence over a certificate.
        match iosConfig.token, iosConfig.certificate with
        | none, none => deleteNotifier application.id s
        | some tokenConfig, _ =>
          finishUpdate crates application (updateToken clients application tokenConfig s)
        | none, some certConfig =>
          finishUpdate crates application (updateCertificate clients application certConfig s)

end ApnsHandler

abbrev apnsHandler (crates : Crates) (topic : String) : EventHandler where
  Entry := Notifier
  Clients := ClientOutcomes
  Event := ApnsHandler.Answer
  Call := Call
  accepts := ApnsHandler.accepts
  handleNotification := ApnsHandler.handleNotification crates topic
  handleHttp := ApnsHandler.handleHttp
  handleConfig := ApnsHandler.handleConfig crates

end XorcNotifications.Apns2
