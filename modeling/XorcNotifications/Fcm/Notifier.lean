import XorcNotifications.Common.World

/-!
# Fcm: notifier

`src/fcm/notifier.rs` over the types of the `fcm` crate.  `debug` gives the text of `{:?}`.
-/

namespace XorcNotifications.Fcm

/-! ## fcm -/

/-- The reasons of a failed delivery; only one is told apart. -/
inductive ErrorReason where
  | notRegistered
  | other (name : String)
deriving DecidableEq

def ErrorReason.debug : ErrorReason → String
  | .notRegistered => "NotRegistered"
  | .other name => name

/-- One entry of `results`, as far as it is read. -/
structure MessageResult where
  error : Option ErrorReason
deriving DecidableEq

structure FcmResponse where
  results : Option (List MessageResult)
deriving DecidableEq

/-- `fcm::response::FcmError`; the fields carry the `{:?}` text of their contents. -/
inductive FcmError where
  | serverError (retryAfter : String)
  | unauthorized
  | invalidMessage (reason : String)
deriving DecidableEq

def FcmError.debug : FcmError → String
  | .serverError retryAfter => "ServerError(" ++ retryAfter ++ ")"
  | .unauthorized => "Unauthorized"
  | .invalidMessage reason => "InvalidMessage(" ++ reason ++ ")"

inductive Priority where
  | normal
  | high
deriving DecidableEq

structure NotificationBuilder where
  title : Option String
  tag : Option String
  body : Option String
  icon : Option String
  sound : Option String
  badge : Option String
  color : Option String
  clickAction : Option String
  bodyLocKey : Option String
  titleLocKey : Option String
  titleLocArgs : Option (List String)
  bodyLocArgs : Option (List String)
deriving DecidableEq

def NotificationBuilder.new : NotificationBuilder :=
  ⟨none, none, none, none, none, none, none, none, none, none, none, none⟩

/-- The message under construction, which is also the message that is sent. -/
structure Message where
  apiKey : String
  recipient : String
  data : Option StringMap
  notification : Option NotificationBuilder
  registrationIds : Option (List String)
  collapseKey : Option String
  priority : Option Priority
  contentAvailable : Option Bool
  delayWhileIdle : Option Bool
  timeToLive : Option Int32
  restrictedPackageName : Option String
  dryRun : Option Bool
deriving DecidableEq

def Message.new (apiKey recipient : String) : Message :=
  ⟨apiKey, recipient, none, none, none, none, none, none, none, none, none, none⟩

/-- The serialization in `MessageBuilder::data`: the `{:?}` text of its error, if it fails. -/
structure Crates where
  encodeError : StringMap → Option String

abbrev World := XorcNotifications.World Message

/-! ## Notifier -/

namespace Notifier

variable (crates : Crates)

/-- `message.data(..)` and the record that is logged when it fails. -/
def setData (message : Message) (data : StringMap) : Message × List LogRecord :=
  match crates.encodeError data with
  | none => ({ message with data := some data }, [])
  | some e => (message, [⟨.error, "Couldn't encode custom data to the message: " ++ e, []⟩])

def genNotification (localized : GoogleLocalizedAlert) : NotificationBuilder :=
  { NotificationBuilder.new with
    title := localized.title
    tag := localized.tag
    body := localized.body
    icon := localized.icon
    sound := localized.sound
    badge := localized.badge
    color := localized.color
    clickAction := localized.clickAction
    bodyLocKey := localized.bodyLocKey
    titleLocKey := localized.titleLocKey
    titleLocArgs := if localized.titleLocArgs.isEmpty then none else some localized.titleLocArgs
    bodyLocArgs := if localized.bodyLocArgs.isEmpty then none else some localized.bodyLocArgs }

/-- `Notifier::gen_payload`, with the records it logs. -/
def genPayload (pn : PushNotification) (apiKey : String) : Message × List LogRecord :=
  let notification := pn.getGoogle
  let message := Message.new apiKey pn.deviceToken
  let (message, logs) := match notification.localized with
    | some localized =>
      let (message, logs) := setData crates message localized.data
      ({ message with notification := some (genNotification localized) }, logs)
    | none => setData crates message notification.messageData
  let message := if notification.registrationIds.isEmpty then message
    else { message with registrationIds := some notification.registrationIds }
  ({ message with
      collapseKey := notification.collapseKey
      priority := match notification.priority with
        | .normal => some .normal
        | .high => some .high
      contentAvailable := notification.contentAvailable
      delayWhileIdle := notification.delayWhileIdle
      timeToLive := notification.timeToLive
      restrictedPackageName := notification.restrictedPackageName
      dryRun := notification.dryRun }, logs)

/-- `Notifier::notify`: the call starts, and its future resolves with the first answer. -/
def notify (event : PushNotification) (apiKey : String) (w : World) : World :=
  let payload := genPayload crates event apiKey
  (w.logAll payload.2).startCall payload.1

end Notifier

end XorcNotifications.Fcm
