import XorcNotifications.Common.RequestConsumer

/-!
# Web push: notifier, producer and handler

`src/web_push` over the types of the `web_push` crate.  `topic` is the output topic of
the configuration, to which the producer publishes.
-/

namespace XorcNotifications.WebPush

open Futures Executors KeyedTables

/-! ## web_push -/

/-- `WebPushError`; the variants the code does not name carry their `{:?}` text. -/
inductive WebPushError where
  | serverError (retryAfter : String)
  | timeoutError
  | endpointNotFound
  | endpointNotValid
  | other (debug : String)
deriving DecidableEq

structure SubscriptionInfo where
  endpoint : String
  p256dh : String
  auth : String
deriving DecidableEq

/-- The message under construction.  The only content encoding used is `AesGcm`. -/
structure WebPushMessageBuilder where
  subscription : SubscriptionInfo
  payload : Option Bytes
  ttl : Option UInt32
  gcmKey : Option String
deriving DecidableEq

structure WebPushMessage where
  built : WebPushMessageBuilder
deriving DecidableEq

/-- The functions of the crate that the service calls. -/
structure Crates where
  -- `WebPushMessageBuilder::new`: the error, if it fails.
  newError : SubscriptionInfo → Option WebPushError
  -- `WebPushMessageBuilder::build`: the error, if it fails.
  buildError : WebPushMessageBuilder → Option WebPushError
  -- `WebPushError::short_description`.
  shortDescription : WebPushError → String
  -- `{:?}` of an error.
  debugError : WebPushError → String

abbrev World := XorcNotifications.World WebPushMessage

abbrev Answer := Except WebPushError Unit

/-! ## Notifier -/

namespace Notifier

variable (crates : Crates)

def buildMessage (pn : PushNotification) (fcmApiKey : Option String) :
    Except WebPushError WebPushMessage :=
  let web := pn.getWeb
  -- The two keys change places: `SubscriptionInfo::new` takes `p256dh` before `auth`.
  let subscriptionInfo : SubscriptionInfo := ⟨pn.deviceToken, web.auth, web.p256dh⟩
  match crates.newError subscriptionInfo with
  | some e => .error e
  | none =>
    let message : WebPushMessageBuilder :=
      { subscription := subscriptionInfo
        payload := web.payload.map String.toUTF8
        ttl := web.ttl.map Int32.toUInt32
        gcmKey := fcmApiKey }
    match crates.buildError message with
    | some e => .error e
    | none => .ok ⟨message⟩

/-- What `Notifier::notify` does at once: it starts a call if there is a message to send. -/
def notify (event : PushNotification) (fcmApiKey : Option String) (w : World) : World :=
  match buildMessage crates event fcmApiKey with
  | .ok message => w.startCall message
  | .error _ => w

/-- The future of `Notifier::notify`: the answer of the call, or at once the error of a
    message that could not be built. -/
def answer (event : PushNotification) (fcmApiKey : Option String) : Future Answer Answer :=
  match buildMessage crates event fcmApiKey with
  | .ok _ => Future.first some
  | .error e => Future.ready (.error e)

end Notifier

/-! ## WebPushProducer -/

namespace WebPushProducer

variable (crates : Crates) (topic : String)

def handleOk (key : Option Bytes) (event : PushNotification) (w : World) : World :=
  let w := w.log .info "Successfully sent a push notification"
    (event.serialize ++ [("successful", .bool true)])
  let w := w.countCallback "success"
  w.publish topic key (.pushResult (.into event .none))

def handleNoCert (key : Option Bytes) (event : PushNotification) (w : World) : World :=
  let w := w.log .error "Application is not configured to send web push messages"
    (event.serialize ++ [("successful", .bool false)])
  let w := w.countCallback "certificate_missing"
  w.publish topic key (.pushResult (.into event .retry))

def responseAction : WebPushError → ResponseAction
  | .serverError _ | .timeoutError => .retry
  | .endpointNotFound | .endpointNotValid => .unsubscribeEntity
  | .other _ => .none

def handleError (key : Option Bytes) (event : PushNotification) (error : WebPushError) (w : World) :
    World :=
  let w := w.log .error "Error sending a push notification"
    (event.serialize ++ [("successful", .bool false), ("reason", .str (crates.debugError error))])
  let w := w.countCallback (crates.shortDescription error)
  w.publish topic key (.pushResult (.into event (responseAction error)))

end WebPushProducer

/-! ## WebPushHandler -/

structure ApiKey where
  fcmApiKey : Option String
deriving DecidableEq

namespace WebPushHandler

/-- `fcm_api_keys`: the entry of each tenant, which may hold no key. -/
abbrev FcmApiKeys := Table String ApiKey

def accepts (event : PushNotification) : Bool := event.hasWeb

section Notification

variable (crates : Crates) (topic : String)

def onAnswer (key : Option Bytes) (event : PushNotification) (result : Answer) (w : World) : World :=
  let w := w.decInflight
  match result with
  | .ok () => WebPushProducer.handleOk topic key event w
  | .error error => WebPushProducer.handleError crates topic key event error w

def handleNotification (fcmApiKeys : FcmApiKeys) (key : Option Bytes) (event : PushNotification) :
    Reaction Answer World :=
  match fcmApiKeys.lookup event.universeId with
  | some entity =>
    { now := fun w => Notifier.notify crates event entity.fcmApiKey w.incInflight
      leaves := .task
        ((Notifier.answer crates event entity.fcmApiKey).map (onAnswer crates topic key event)) }
  -- Here the gauge goes up after the lookup.
  | none =>
    { now := fun w => WebPushProducer.handleNoCert topic key event w
      leaves := .nothing }

end Notification

def handleHttp (_ : Option Bytes) (_ : HttpRequest) : Reaction Answer World where
  now w := w.log .warn "We don't handle http request events here" []
  leaves := .nothing

/-! ### Tenant configuration -/

def setAppCounter (s : FcmApiKeys × World) : FcmApiKeys × World :=
  (s.1, s.2.setNumberOfApplications s.1.size)

def deleteKey (id : String) (s : FcmApiKeys × World) : FcmApiKeys × World :=
  match s.1.lookup id with
  | some _ =>
    let s := setAppCounter (s.1.erase id, s.2)
    (s.1, s.2.log .info "Application removed" [("universe", .str id)])
  | none => s

def handleConfig (id : String) (application : Option Application) (s : FcmApiKeys × World) :
    FcmApiKeys × World :=
  match application with
  | none => deleteKey id s
  | some application =>
    match application.webConfig with
    | none => deleteKey application.id s
    | some webApp =>
      if webApp.enabled = false then deleteKey application.id s
      else
        match webApp.fcmApiKey with
        | some apiKey =>
          let w := s.2.log .info "Updating application configuration"
            (application.serialize ++ [("fcm_api_key", .str apiKey)])
          setAppCounter (s.1.insert application.id ⟨some apiKey⟩, w)
        -- A tenant without a key still has an entry.
        | none =>
          let w := s.2.log .info "Updating application configuration" application.serialize
          setAppCounter (s.1.insert application.id ⟨none⟩, w)

end WebPushHandler

/-- `impl EventHandler for WebPushHandler`.  No client is constructed for a tenant. -/
abbrev webPushHandler (crates : Crates) (topic : String) : EventHandler where
  Entry := ApiKey
  Clients := Unit
  Event := Answer
  Call := WebPushMessage
  accepts := WebPushHandler.accepts
  handleNotification := WebPushHandler.handleNotification crates topic
  handleHttp := WebPushHandler.handleHttp
  handleConfig _ := WebPushHandler.handleConfig

end XorcNotifications.WebPush
