import XorcNotifications.Common.World

/-!
# Apns2: notifier

`src/apns2/notifier.rs` over the types of the `a2` crate.  A client is identified by
what it was constructed from; whether its construction succeeds is up to the crate.
`debug` gives the text of `{:?}`.
-/

namespace XorcNotifications.Apns2

/-! ## a2 -/

inductive Endpoint where
  | production
  | sandbox
deriving DecidableEq

def Endpoint.debug : Endpoint → String
  | .production => "Production"
  | .sandbox => "Sandbox"

/-- The reasons the producer tells apart; the others carry their name. -/
inductive ErrorReason where
  | unregistered
  | deviceTokenNotForTopic
  | badDeviceToken
  | internalServerError
  | shutdown
  | serviceUnavailable
  | expiredProviderToken
  | forbidden
  | other (name : String)
deriving DecidableEq

def ErrorReason.debug : ErrorReason → String
  | .unregistered => "Unregistered"
  | .deviceTokenNotForTopic => "DeviceTokenNotForTopic"
  | .badDeviceToken => "BadDeviceToken"
  | .internalServerError => "InternalServerError"
  | .shutdown => "Shutdown"
  | .serviceUnavailable => "ServiceUnavailable"
  | .expiredProviderToken => "ExpiredProviderToken"
  | .forbidden => "Forbidden"
  | .other name => name

/-- The answer of APNs, as far as it is read: the reason of its error body. -/
structure Response where
  error : Option ErrorReason
deriving DecidableEq

/-- `a2::error::Error`; the variants the code does not name carry their `{:?}` text. -/
inductive Error where
  | connectionError
  | responseError (response : Response)
  | other (debug : String)
deriving DecidableEq

inductive Priority where
  | high
  | normal
deriving DecidableEq

structure NotificationOptions where
  apnsId : Option String
  apnsExpiration : Option UInt64
  apnsPriority : Priority
  apnsTopic : Option String
deriving DecidableEq

def NotificationOptions.default : NotificationOptions := ⟨none, none, .normal, none⟩

structure LocalizedNotificationBuilder where
  title : String
  body : String
  titleLocKey : Option String
  titleLocArgs : Option (List String)
  actionLocKey : Option String
  launchImage : Option String
  locKey : Option String
  locArgs : Option (List String)
  badge : Option UInt32
  sound : Option String
  category : Option String
  mutableContent : Bool
deriving DecidableEq

def LocalizedNotificationBuilder.new (title body : String) : LocalizedNotificationBuilder :=
  ⟨title, body, none, none, none, none, none, none, none, none, none, false⟩

structure PlainNotificationBuilder where
  body : String
  badge : Option UInt32
  sound : Option String
  category : Option String
deriving DecidableEq

def PlainNotificationBuilder.new (body : String) : PlainNotificationBuilder := ⟨body, none, none, none⟩

inductive Aps where
  | localized (alert : LocalizedNotificationBuilder)
  | silent
  | plain (alert : PlainNotificationBuilder)
deriving DecidableEq

inductive Json where
  | null
  | bool (b : Bool)
  | number (text : String)
  | string (s : String)
  | array (items : List Json)
  | object (members : List (String × Json))

structure Payload where
  options : NotificationOptions
  deviceToken : String
  aps : Aps
  -- The members added by `add_custom_data`.
  data : List (String × Json)

/-- The functions of other crates that the service calls. -/
structure Crates where
  -- `serde_json::from_str`, the error as its `{:?}` text.
  fromStr : String → Except String Json
  -- The serialization in `Payload::add_custom_data`.
  serialize : Json → Except String Json
  -- `heck::SnakeCase`.
  toSnakeCase : String → String
  -- `{:?}` of an error.
  debugError : Error → String

def Payload.addCustomData (crates : Crates) (payload : Payload) (key : String) (value : Json) :
    Except String Payload :=
  (crates.serialize value).map fun value => { payload with data := payload.data ++ [(key, value)] }

inductive Client where
  | token (pkcs8 : Bytes) (keyId teamId : String) (endpoint : Endpoint)
  | certificate (pkcs12 : Bytes) (password : String) (endpoint : Endpoint)
deriving DecidableEq

/-- The errors of the two client constructors, `none` where they succeed. -/
structure ClientOutcomes where
  token : Bytes → String → String → Endpoint → Option Error
  certificate : Bytes → String → Endpoint → Option Error

namespace Client

def newToken (clients : ClientOutcomes) (pkcs8 : Bytes) (keyId teamId : String)
    (endpoint : Endpoint) : Except Error Client :=
  match clients.token pkcs8 keyId teamId endpoint with
  | some error => .error error
  | none => .ok (.token pkcs8 keyId teamId endpoint)

def newCertificate (clients : ClientOutcomes) (pkcs12 : Bytes) (password : String)
    (endpoint : Endpoint) : Except Error Client :=
  match clients.certificate pkcs12 password endpoint with
  | some error => .error error
  | none => .ok (.certificate pkcs12 password endpoint)

end Client

/-! ## Notifier -/

inductive NotifierType where
  | token
  | certificate
deriving DecidableEq

structure Notifier where
  client : Client
  topic : String
  notifierType : NotifierType
deriving DecidableEq

/-- A payload on its way to APNs, with the timeout in seconds. -/
structure Call where
  client : Client
  payload : Payload
  timeout : Nat

abbrev World := XorcNotifications.World Call

namespace Notifier

/-- `impl Drop for Notifier`. -/
def drop (notifier : Notifier) (w : World) : World :=
  match notifier.notifierType with
  | .token => w.addTokenConsumers (-1)
  | .certificate => w.addCertificateConsumers (-1)

def certificate (clients : ClientOutcomes) (pkcs12 : Bytes) (password : String)
    (endpoint : Endpoint) (topic : String) (w : World) : Except Error Notifier × World :=
  match Client.newCertificate clients pkcs12 password endpoint with
  | .error error => (.error error, w)
  | .ok client =>
    (.ok { client, topic, notifierType := .certificate }, w.addCertificateConsumers 1)

def token (clients : ClientOutcomes) (pkcs8 : Bytes) (keyId teamId : String)
    (endpoint : Endpoint) (topic : String) (w : World) : Except Error Notifier × World :=
  match Client.newToken clients pkcs8 keyId teamId endpoint with
  | .error error => (.error error, w)
  | .ok client => (.ok { client, topic, notifierType := .token }, w.addTokenConsumers 1)

/-- The options at the head of `gen_payload`. -/
def genOptions (notifier : Notifier) (event : PushNotification) : NotificationOptions :=
  let headers := event.getApple.getHeaders
  let options := NotificationOptions.default
  let options := match headers.apnsPriority with
    | some priority => { options with apnsPriority := if priority = 10 then .high else .normal }
    | none => options
  let options := match event.getHeader.correlationId with
    | some correlationId => { options with apnsId := some correlationId }
    | none => options
  let options := match headers.apnsExpiration with
    | some expiration => { options with apnsExpiration := some expiration.toUInt64 }
    | none => options
  -- The topic of the tenant stands in for a missing header.
  match headers.apnsTopic with
  | some topic => { options with apnsTopic := some topic }
  | none => { options with apnsTopic := some notifier.topic }

/-- The localized branch of `gen_payload`. -/
def genLocalized (data : AppleNotification) (alert : AppleLocalizedAlert) :
    LocalizedNotificationBuilder :=
  let builder := LocalizedNotificationBuilder.new alert.title alert.body
  let builder := { builder with titleLocKey := alert.titleLocKey.or builder.titleLocKey }
  let builder := if alert.titleLocArgs.isEmpty then builder
    else { builder with titleLocArgs := some alert.titleLocArgs }
  let builder := { builder with actionLocKey := alert.actionLocKey.or builder.actionLocKey }
  let builder := { builder with launchImage := alert.launchImage.or builder.launchImage }
  let builder := { builder with locKey := alert.locKey.or builder.locKey }
  let builder := if alert.locArgs.isEmpty then builder
    else { builder with locArgs := some alert.locArgs }
  let builder := { builder with badge := data.badge.or builder.badge }
  let builder := { builder with sound := data.sound.or builder.sound }
  let builder := { builder with category := data.category.or builder.category }
  if alert.mutableContent = some true then { builder with mutableContent := true } else builder

/-- The plain branch of `gen_payload`. -/
def genPlain (data : AppleNotification) : PlainNotificationBuilder :=
  let builder := PlainNotificationBuilder.new data.plain
  let builder := { builder with badge := data.badge.or builder.badge }
  let builder := { builder with sound := data.sound.or builder.sound }
  { builder with category := data.category.or builder.category }

/-- `Notifier::gen_payload`, with the records it logs. -/
def genPayload (crates : Crates) (notifier : Notifier) (event : PushNotification) :
    Payload × List LogRecord :=
  let data := event.getApple
  let aps := match data.localized with
    | some alert => .localized (genLocalized data alert)
    | none => if data.silent then .silent else .plain (genPlain data)
  let payload : Payload := ⟨notifier.genOptions event, event.deviceToken, aps, []⟩
  match data.customData with
  | none => (payload, [])
  -- Custom data that cannot be read or written is logged and left out.
  | some customData =>
    match crates.fromStr customData.body with
    | .ok json =>
      match payload.addCustomData crates customData.key json with
      | .ok payload => (payload, [])
      | .error e => (payload, [⟨.error, "Couldn't serialize custom data " ++ e, []⟩])
    | .error e => (payload, [⟨.error, "Non-json custom data: " ++ e, []⟩])

/-- `Notifier::notify`: the call starts, and its future resolves with the first answer. -/
def notify (crates : Crates) (notifier : Notifier) (event : PushNotification) (w : World) : World :=
  let payload := notifier.genPayload crates event
  (w.logAll payload.2).startCall ⟨notifier.client, payload.1, 3⟩

end Notifier

end XorcNotifications.Apns2
