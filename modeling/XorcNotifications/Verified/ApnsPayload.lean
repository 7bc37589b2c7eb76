import XorcNotifications.Services

/-!
# What an APNs payload says

The payload of an event, field by field: the kind of its alert, every optional part of
the alert, the options and the custom data.  `genPayload` builds it in steps, each of
which may leave a field as it was; here each field is said once, in terms of the event.
-/

namespace XorcNotifications.Apns2

namespace Notifier

/-! ## What is said -/

/-- An argument list is set exactly if the event has arguments. -/
def ArgsSaid (args : List String) (said : Option (List String)) : Prop :=
  ∀ list, said = some list ↔ args ≠ [] ∧ list = args

structure LocalizedSaid (data : AppleNotification) (alert : AppleLocalizedAlert)
    (builder : LocalizedNotificationBuilder) : Prop where
  title : builder.title = alert.title
  body : builder.body = alert.body
  titleLocKey : builder.titleLocKey = alert.titleLocKey
  titleLocArgs : ArgsSaid alert.titleLocArgs builder.titleLocArgs
  actionLocKey : builder.actionLocKey = alert.actionLocKey
  launchImage : builder.launchImage = alert.launchImage
  locKey : builder.locKey = alert.locKey
  locArgs : ArgsSaid alert.locArgs builder.locArgs
  badge : builder.badge = data.badge
  sound : builder.sound = data.sound
  category : builder.category = data.category
  mutableContent : builder.mutableContent = true ↔ alert.mutableContent = some true

structure PlainSaid (data : AppleNotification) (builder : PlainNotificationBuilder) : Prop where
  body : builder.body = data.plain
  badge : builder.badge = data.badge
  sound : builder.sound = data.sound
  category : builder.category = data.category

/-- The kind of the alert, with the precedence of localized over silent over plain. -/
structure AlertSaid (data : AppleNotification) (aps : Aps) : Prop where
  localized : ∀ alert, data.localized = some alert →
    ∃ builder, aps = .localized builder ∧ LocalizedSaid data alert builder
  silent : data.localized = none → data.silent = true → aps = .silent
  plain : data.localized = none → data.silent = false →
    ∃ builder, aps = .plain builder ∧ PlainSaid data builder

/-- The one member that custom data adds, if its body can be read and written. -/
def CustomMember (crates : Crates) (data : AppleNotification) (member : String × Json) : Prop :=
  ∃ customData json value, data.customData = some customData ∧
    crates.fromStr customData.body = .ok json ∧ crates.serialize json = .ok value ∧
    member = (customData.key, value)

structure Said (crates : Crates) (notifier : Notifier) (event : PushNotification)
    (payload : Payload) : Prop where
  deviceToken : payload.deviceToken = event.deviceToken
  alert : AlertSaid event.getApple payload.aps
  apnsTopic : payload.options.apnsTopic =
    some (event.getApple.getHeaders.apnsTopic.getD notifier.topic)
  apnsId : payload.options.apnsId = event.getHeader.correlationId
  custom : ∀ member, payload.data = [member] ↔ CustomMember crates event.getApple member
  -- There is never more than the one member.
  noCustom : (∀ member, ¬ CustomMember crates event.getApple member) → payload.data = []

def withoutCustomData (event : PushNotification) : PushNotification :=
  { event with apple := event.apple.map fun data => { data with customData := none } }

/-! ## What is read of the event

The accessors stand for what is not set with an empty section, which says nothing. -/

theorem apnsTopic_getHeaders (data : AppleNotification) :
    data.getHeaders.apnsTopic = data.headers.bind (·.apnsTopic) := by
  rw [AppleNotification.getHeaders]
  cases data.headers <;> rfl

theorem correlationId_getHeader (event : PushNotification) :
    event.getHeader.correlationId = event.header.bind (·.correlationId) := by
  rw [PushNotification.getHeader]
  cases event.header <;> rfl

theorem getApple_of_apple {event : PushNotification} {data : AppleNotification} (given : event.apple = some data) :
    event.getApple = data := by
  rw [PushNotification.getApple, given, Option.getD_some]

/-- What is said of an event with an apple section, in terms of what is set in it. -/
theorem Said.of_apple {crates : Crates} {notifier : Notifier} {event : PushNotification} {payload : Payload}
    {data : AppleNotification} (said : Said crates notifier event payload) (given : event.apple = some data) :
    AlertSaid data payload.aps ∧
      payload.options.apnsTopic = some ((data.headers.bind (·.apnsTopic)).getD notifier.topic) ∧
      payload.options.apnsId = event.header.bind (·.correlationId) ∧
      ∀ member, payload.data = [member] ↔ CustomMember crates data member := by
  obtain ⟨-, alert, apnsTopic, apnsId, custom, -⟩ := said
  rw [getApple_of_apple given] at alert apnsTopic custom
  rw [apnsTopic_getHeaders] at apnsTopic
  exact ⟨alert, apnsTopic, apnsId.trans (correlationId_getHeader event), custom⟩

/-! ## What is built -/

theorem genOptions_eq (notifier : Notifier) (event : PushNotification) :
    notifier.genOptions event =
      { apnsId := event.getHeader.correlationId
        apnsExpiration := event.getApple.getHeaders.apnsExpiration.map Int64.toUInt64
        apnsPriority := if event.getApple.getHeaders.apnsPriority = some 10 then .high else .normal
        apnsTopic := some (event.getApple.getHeaders.apnsTopic.getD notifier.topic) } := by
  rw [genOptions]
  -- Each header is looked at once, so they can be told apart one after another.
  cases event.getApple.getHeaders.apnsPriority <;> cases event.getHeader.correlationId <;>
    cases event.getApple.getHeaders.apnsExpiration <;> cases event.getApple.getHeaders.apnsTopic <;>
    simp [NotificationOptions.default]

theorem argsSaid_of_isEmpty (args : List String) :
    ArgsSaid args (if args.isEmpty then none else some args) := by
  intro list
  cases args <;> simp [eq_comm]

theorem genLocalized_eq (data : AppleNotification) (alert : AppleLocalizedAlert) :
    genLocalized data alert =
      { title := alert.title
        body := alert.body
        titleLocKey := alert.titleLocKey
        titleLocArgs := if alert.titleLocArgs.isEmpty then none else some alert.titleLocArgs
        actionLocKey := alert.actionLocKey
        launchImage := alert.launchImage
        locKey := alert.locKey
        locArgs := if alert.locArgs.isEmpty then none else some alert.locArgs
        badge := data.badge
        sound := data.sound
        category := data.category
        mutableContent := alert.mutableContent = some true } := by
  rw [genLocalized]
  by_cases titleArgs : alert.titleLocArgs.isEmpty <;> by_cases args : alert.locArgs.isEmpty <;>
    by_cases mutable : alert.mutableContent = some true <;>
    simp [titleArgs, args, mutable, LocalizedNotificationBuilder.new]

theorem genLocalized_said (data : AppleNotification) (alert : AppleLocalizedAlert) :
    LocalizedSaid data alert (genLocalized data alert) := by
  rw [genLocalized_eq]
  refine ⟨rfl, rfl, rfl, argsSaid_of_isEmpty alert.titleLocArgs, rfl, rfl, rfl,
    argsSaid_of_isEmpty alert.locArgs, rfl, rfl, rfl, ?_⟩
  exact decide_eq_true_iff

theorem genPlain_said (data : AppleNotification) : PlainSaid data (genPlain data) := by
  refine ⟨rfl, ?_, ?_, ?_⟩ <;> simp [genPlain, PlainNotificationBuilder.new]

/-- The member that custom data adds, as a value. -/
def customMember (crates : Crates) (data : AppleNotification) : Option (String × Json) :=
  data.customData.bind fun customData =>
    ((crates.fromStr customData.body).bind crates.serialize).toOption.map fun value =>
      (customData.key, value)

theorem customMember_eq_some_iff (crates : Crates) (data : AppleNotification) (member : String × Json) :
    customMember crates data = some member ↔ CustomMember crates data member := by
  rw [customMember, CustomMember]
  cases data.customData with
  | none => simp
  | some customData =>
    cases read : crates.fromStr customData.body with
    | error e => simp [Except.bind, Except.toOption, read]
    | ok json =>
      cases written : crates.serialize json <;> simp [Except.bind, Except.toOption, read, written, eq_comm]

/-- The payload, once everything that is logged has been left out. -/
theorem genPayload_eq (crates : Crates) (notifier : Notifier) (event : PushNotification) :
    (notifier.genPayload crates event).1 =
      { options := notifier.genOptions event
        deviceToken := event.deviceToken
        aps := match event.getApple.localized with
          | some alert => .localized (genLocalized event.getApple alert)
          | none => if event.getApple.silent then .silent else .plain (genPlain event.getApple)
        data := (customMember crates event.getApple).toList } := by
  rw [genPayload, customMember]
  cases event.getApple.customData with
  | none => rfl
  | some customData =>
    cases read : crates.fromStr customData.body with
    | error e =>
      simp only [Option.bind_some, Except.bind, Except.toOption, read]
      rfl
    | ok json =>
      cases written : crates.serialize json <;>
      · simp only [Option.bind_some, Except.bind, Except.toOption, Payload.addCustomData, Except.map,
          read, written]
        rfl

theorem genPayload_said (crates : Crates) (notifier : Notifier) (event : PushNotification) :
    Said crates notifier event (notifier.genPayload crates event).1 := by
  rw [genPayload_eq, genOptions_eq]
  refine ⟨rfl, ⟨fun alert present => ?_, fun absent silent => ?_, fun absent loud => ?_⟩, rfl, rfl,
    fun member => ?_, fun none => ?_⟩
  · exact ⟨_, by simp only [present], genLocalized_said _ alert⟩
  · simp only [absent, silent, if_true]
  · exact ⟨_, by simp only [absent, loud, Bool.false_eq_true, if_false], genPlain_said _⟩
  · rw [← customMember_eq_some_iff]
    cases customMember crates event.getApple <;> simp
  · cases value : customMember crates event.getApple with
    | none => simp
    | some member => exact absurd ((customMember_eq_some_iff _ _ _).mp value) (none member)

/-- Custom data that adds no member might as well not be there. -/
theorem genPayload_withoutCustomData (crates : Crates) (notifier : Notifier) {event : PushNotification}
    (unusable : ∀ member, ¬ CustomMember crates event.getApple member) :
    (notifier.genPayload crates event).1 = (notifier.genPayload crates (withoutCustomData event)).1 := by
  have nothing : customMember crates event.getApple = none := by
    rw [Option.eq_none_iff_forall_ne_some]
    intro member adds
    exact unusable member ((customMember_eq_some_iff _ _ _).mp adds)
  rw [genPayload_eq, genPayload_eq, nothing]
  cases platform : event.apple <;>
    simp [withoutCustomData, customMember, PushNotification.getApple, PushNotification.getHeader,
      AppleNotification.getHeaders, genOptions, genLocalized, genPlain, platform, AppleNotification.new]

/-- The payload that is sent says what the event says, and custom data that cannot be
    used is as good as none. -/
theorem apns_payload_says_event (crates : Crates) (notifier : Notifier) (event : PushNotification) :
    (∀ w, (notifier.notify crates event w).calls =
      w.calls ++ [⟨notifier.client, (notifier.genPayload crates event).1, 3⟩]) ∧
    Said crates notifier event (notifier.genPayload crates event).1 ∧
    ((∀ member, ¬ CustomMember crates event.getApple member) →
      (notifier.genPayload crates event).1 =
        (notifier.genPayload crates (withoutCustomData event)).1) :=
  ⟨fun _ => rfl, genPayload_said crates notifier event,
    genPayload_withoutCustomData crates notifier⟩

end Notifier

end XorcNotifications.Apns2
