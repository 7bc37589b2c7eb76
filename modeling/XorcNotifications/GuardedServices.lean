import XorcNotifications.Common.GuardedHandler
import XorcNotifications.Services

/-!
# The push services at the lock

The functions of `src/apns2/consumer.rs`, `src/fcm/consumer.rs` and `src/web_push/consumer.rs` that
use the tenant table, once more, with their guards.
-/

namespace XorcNotifications

open Executors Guards HandlerProgram

/-! ## apns2 -/

namespace Apns2.GuardedApnsHandler

open ApnsHandler

variable (crates : Crates) (topic : String)

abbrev Program := HandlerProgram (apnsHandler crates topic)

/-- The guard of the `if let` lives through both branches. -/
def handleNotification (key : Option Bytes) (event : PushNotification) : Program crates topic :=
  .act (onWorld World.incInflight) <| .lock .read <| .look fun notifiers =>
    match notifiers.lookup event.universeId with
    | some notifier =>
      .act (onWorld (notifier.notify crates event)) <| .unlock <|
        returns (.task (answer.map (onAnswer crates topic key event)))
    | none =>
      .act (onWorld (ApnsProducer.handleFatal crates topic key event .connectionError)) <| .unlock <|
        returns .nothing

def deleteNotifier (id : String) : Program crates topic := removeEntry Notifier.drop .warn id

variable {crates topic}

/-- What the two functions that add a notifier share.  The client is made before the table is
    locked, and where that fails `?` returns. -/
def addNotifier (made : Except Error Client) (count : World → World) (notifierType : NotifierType)
    (applicationId apnsTopic : String) (rest : Except Error Unit → Program crates topic) :
    Program crates topic :=
  match made with
  | .error error => rest (.error error)
  | .ok client =>
    .act (onWorld count) <|
      insertEntry Notifier.drop applicationId ⟨client, apnsTopic, notifierType⟩ (rest (.ok ()))

def addCertificateNotifier (clients : ClientOutcomes) (certificate : IosCertificate) (endpoint : Endpoint) :
    String → String → (Except Error Unit → Program crates topic) → Program crates topic :=
  addNotifier (Client.newCertificate clients certificate.pkcs12 certificate.password endpoint)
    (·.addCertificateConsumers 1) .certificate

def addTokenNotifier (clients : ClientOutcomes) (token : IosToken) (endpoint : Endpoint) :
    String → String → (Except Error Unit → Program crates topic) → Program crates topic :=
  addNotifier (Client.newToken clients token.pkcs8 token.keyId token.teamId endpoint)
    (·.addTokenConsumers 1) .token

variable (crates topic)

def finishUpdate (application : Application) (updated : Except Error Unit) : Program crates topic :=
  setAppCounter <|
    match updated with
    | .error error =>
      .act (onWorld (·.log .error "Error connecting to APNs"
        (application.serialize ++ [("error", .str (crates.debugError error))]))) returnsUnit
    | .ok () => returnsUnit

def updateToken (clients : ClientOutcomes) (application : Application) (tokenConfig : IosToken) :
    Program crates topic :=
  let endpoint := toEndpoint tokenConfig.endpoint
  .act (onWorld (·.log .info "Updating application configuration" (application.serialize ++
    [("connection_type", .str "token"), ("team_id", .str tokenConfig.teamId),
      ("key_id", .str tokenConfig.keyId), ("apns_topic", .str tokenConfig.apnsTopic),
      ("endpoint", .str endpoint.debug)]))) <|
    addTokenNotifier clients tokenConfig endpoint application.id tokenConfig.apnsTopic
      (finishUpdate crates topic application)

def updateCertificate (clients : ClientOutcomes) (application : Application)
    (certConfig : IosCertificate) : Program crates topic :=
  let endpoint := toEndpoint certConfig.endpoint
  .act (onWorld (·.log .info "Updating application configuration" (application.serialize ++
    [("connection_type", .str "certificate"), ("apns_topic", .str certConfig.apnsTopic),
      ("endpoint", .str endpoint.debug)]))) <|
    addCertificateNotifier clients certConfig endpoint application.id certConfig.apnsTopic
      (finishUpdate crates topic application)

def handleConfig (clients : ClientOutcomes) (id : String) (application : Option Application) :
    Program crates topic :=
  match application with
  | none => deleteNotifier crates topic id
  | some application =>
    match application.iosConfig with
    | none => deleteNotifier crates topic application.id
    | some iosConfig =>
      if iosConfig.enabled = false then deleteNotifier crates topic application.id
      else
        match iosConfig.token, iosConfig.certificate with
        | none, none => deleteNotifier crates topic application.id
        | some tokenConfig, _ => updateToken crates topic clients application tokenConfig
        | none, some certConfig => updateCertificate crates topic clients application certConfig

end Apns2.GuardedApnsHandler

def Apns2.guardedApnsHandler (crates : Apns2.Crates) (topic : String) :
    GuardedHandler (apnsHandler crates topic) where
  handleNotification := GuardedApnsHandler.handleNotification crates topic
  handleConfig := GuardedApnsHandler.handleConfig crates topic

/-! ## fcm -/

namespace Fcm.GuardedFcmHandler

open FcmHandler

variable (crates : Crates) (topic : String)

abbrev Program := HandlerProgram (fcmHandler crates topic)

def handleNotification (key : Option Bytes) (event : PushNotification) : Program crates topic :=
  .act (onWorld World.incInflight) <| .lock .read <| .look fun apiKeys =>
    match apiKeys.lookup event.universeId with
    | some apiKey =>
      .act (onWorld (Notifier.notify crates event apiKey)) <| .unlock <|
        returns (.task (answer.map (onAnswer topic key event)))
    | none =>
      .act (onWorld (FcmProducer.handleNoCert topic key event)) <| .unlock <| returns .nothing

/-- A key has nothing to drop. -/
def deleteKey (id : String) : Program crates topic := removeEntry (fun _ w => w) .info id

def handleConfig (id : String) (application : Option Application) : Program crates topic :=
  match application with
  | none => deleteKey crates topic id
  | some application =>
    match application.androidConfig with
    | none => deleteKey crates topic application.id
    | some androidConfig =>
      if androidConfig.enabled = false then deleteKey crates topic application.id
      else
        match androidConfig.fcmApiKey with
        | none => deleteKey crates topic application.id
        | some apiKey =>
          .act (onWorld (·.log .info "Updating application configuration"
            (application.serialize ++ [("fcm_api_key", .str apiKey)]))) <|
            insertEntry (fun _ w => w) application.id apiKey <| setAppCounter returnsUnit

end Fcm.GuardedFcmHandler

def Fcm.guardedFcmHandler (crates : Fcm.Crates) (topic : String) : GuardedHandler (fcmHandler crates topic) where
  handleNotification := GuardedFcmHandler.handleNotification crates topic
  handleConfig _ := GuardedFcmHandler.handleConfig crates topic

/-! ## web_push -/

namespace WebPush.GuardedWebPushHandler

open WebPushHandler

variable (crates : Crates) (topic : String)

abbrev Program := HandlerProgram (webPushHandler crates topic)

/-- The gauge goes up under the guard, and only for a tenant. -/
def handleNotification (key : Option Bytes) (event : PushNotification) : Program crates topic :=
  .lock .read <| .look fun fcmApiKeys =>
    match fcmApiKeys.lookup event.universeId with
    | some entity =>
      .act (onWorld World.incInflight) <|
        .act (onWorld (Notifier.notify crates event entity.fcmApiKey)) <| .unlock <|
          returns (.task ((Notifier.answer crates event entity.fcmApiKey).map (onAnswer crates topic key event)))
    | none =>
      .act (onWorld (WebPushProducer.handleNoCert topic key event)) <| .unlock <| returns .nothing

def deleteKey (id : String) : Program crates topic := removeEntry (fun _ w => w) .info id

def handleConfig (id : String) (application : Option Application) : Program crates topic :=
  match application with
  | none => deleteKey crates topic id
  | some application =>
    match application.webConfig with
    | none => deleteKey crates topic application.id
    | some webApp =>
      if webApp.enabled = false then deleteKey crates topic application.id
      else
        match webApp.fcmApiKey with
        | some apiKey =>
          .act (onWorld (·.log .info "Updating application configuration"
            (application.serialize ++ [("fcm_api_key", .str apiKey)]))) <|
            insertEntry (fun _ w => w) application.id ⟨some apiKey⟩ <| setAppCounter returnsUnit
        | none =>
          .act (onWorld (·.log .info "Updating application configuration" application.serialize)) <|
            insertEntry (fun _ w => w) application.id ⟨none⟩ <| setAppCounter returnsUnit

end WebPush.GuardedWebPushHandler

def WebPush.guardedWebPushHandler (crates : WebPush.Crates) (topic : String) :
    GuardedHandler (webPushHandler crates topic) where
  handleNotification := GuardedWebPushHandler.handleNotification crates topic
  handleConfig _ := GuardedWebPushHandler.handleConfig crates topic

def PushService.guarded (crates : Crates) : (service : PushService) → GuardedHandler (service.handler crates)
  | .apns2 => Apns2.guardedApnsHandler crates.apns2 crates.outputTopic
  | .fcm => Fcm.guardedFcmHandler crates.fcm crates.outputTopic
  | .webPush => WebPush.guardedWebPushHandler crates.webPush crates.outputTopic

end XorcNotifications
