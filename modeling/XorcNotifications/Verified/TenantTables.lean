import XorcNotifications.Services

/-!
# Tenant tables

Every call of `handle_config` is one keyed update of the tenant table: it binds the
tenant of the application, removes a tenant, or fails and does nothing.  Which of these
it is depends on the call alone, so a table is the fold of the updates of its calls, and
the general facts about keyed tables apply to all three services.
-/

namespace XorcNotifications

open KeyedTables

/-! ## fcm -/

namespace Fcm

open FcmHandler

/-- The key an application brings: that of an enabled android section. -/
def keyOf (application : Application) : Option String :=
  application.androidConfig.bind fun config => if config.enabled then config.fcmApiKey else none

def configUpdate (id : String) : Option Application → Update String String
  | none => .drop id
  | some application =>
    match keyOf application with
    | some apiKey => .put application.id apiKey
    | none => .drop application.id

theorem deleteKey_table (id : String) (s : ApiKeys × World) :
    (deleteKey id s).1 = s.1.apply (.drop id) := by
  rw [deleteKey]
  cases present : s.1.lookup id with
  | none => exact (Table.apply_drop_of_absent present).symm
  | some apiKey => rfl

/-- What a configuration comes to: the removal of a tenant, or a key for one. -/
theorem handleConfig_cases (id : String) (application : Option Application) (s : ApiKeys × World) :
    (∃ x, configUpdate id application = .drop x ∧ handleConfig id application s = deleteKey x s) ∨
      ∃ x apiKey pairs, configUpdate id application = .put x apiKey ∧
        handleConfig id application s = setAppCounter
          (s.1.insert x apiKey, s.2.log .info "Updating application configuration" pairs) := by
  cases application with
  | none => exact .inl ⟨id, rfl, rfl⟩
  | some application =>
    cases platform : application.androidConfig with
    | none =>
      exact .inl ⟨application.id, by simp [configUpdate, keyOf, platform], by simp [handleConfig, platform]⟩
    | some config =>
      cases enabled : config.enabled with
      | false =>
        exact .inl ⟨application.id, by simp [configUpdate, keyOf, platform, enabled],
          by simp [handleConfig, platform, enabled]⟩
      | true =>
        cases apiKey : config.fcmApiKey with
        | none =>
          exact .inl ⟨application.id, by simp [configUpdate, keyOf, platform, enabled, apiKey],
            by simp [handleConfig, platform, enabled, apiKey]⟩
        | some apiKey' =>
          exact .inr ⟨application.id, apiKey', application.serialize ++ [("fcm_api_key", .str apiKey')],
            by simp [configUpdate, keyOf, platform, enabled, apiKey],
            by simp [handleConfig, platform, enabled, apiKey]⟩

theorem handleConfig_table (id : String) (application : Option Application) (s : ApiKeys × World) :
    (handleConfig id application s).1 = s.1.apply (configUpdate id application) := by
  rcases handleConfig_cases id application s with ⟨x, update, called⟩ | ⟨x, apiKey, pairs, update, called⟩
  · rw [update, called, deleteKey_table]
  · rw [update, called]
    rfl

end Fcm

/-! ## web_push -/

namespace WebPush

open WebPushHandler

/-- The entry an application brings: that of an enabled web section, with or without a key. -/
def entryOf (application : Application) : Option ApiKey :=
  application.webConfig.bind fun config => if config.enabled then some ⟨config.fcmApiKey⟩ else none

def configUpdate (id : String) : Option Application → Update String ApiKey
  | none => .drop id
  | some application =>
    match entryOf application with
    | some entry => .put application.id entry
    | none => .drop application.id

theorem deleteKey_table (id : String) (s : FcmApiKeys × World) :
    (deleteKey id s).1 = s.1.apply (.drop id) := by
  rw [deleteKey]
  cases present : s.1.lookup id with
  | none => exact (Table.apply_drop_of_absent present).symm
  | some entry => rfl

/-- What a configuration comes to: the removal of a tenant, or an entry for one. -/
theorem handleConfig_cases (id : String) (application : Option Application) (s : FcmApiKeys × World) :
    (∃ x, configUpdate id application = .drop x ∧ handleConfig id application s = deleteKey x s) ∨
      ∃ x entry pairs, configUpdate id application = .put x entry ∧
        handleConfig id application s = setAppCounter
          (s.1.insert x entry, s.2.log .info "Updating application configuration" pairs) := by
  cases application with
  | none => exact .inl ⟨id, rfl, rfl⟩
  | some application =>
    cases platform : application.webConfig with
    | none =>
      exact .inl ⟨application.id, by simp [configUpdate, entryOf, platform], by simp [handleConfig, platform]⟩
    | some config =>
      cases enabled : config.enabled with
      | false =>
        exact .inl ⟨application.id, by simp [configUpdate, entryOf, platform, enabled],
          by simp [handleConfig, platform, enabled]⟩
      | true =>
        -- With a key or without one, the tenant has an entry.
        cases apiKey : config.fcmApiKey with
        | none =>
          exact .inr ⟨application.id, ⟨none⟩, application.serialize,
            by simp [configUpdate, entryOf, platform, enabled, apiKey],
            by simp [handleConfig, platform, enabled, apiKey]⟩
        | some apiKey' =>
          exact .inr ⟨application.id, ⟨some apiKey'⟩,
            application.serialize ++ [("fcm_api_key", .str apiKey')],
            by simp [configUpdate, entryOf, platform, enabled, apiKey],
            by simp [handleConfig, platform, enabled, apiKey]⟩

theorem handleConfig_table (id : String) (application : Option Application) (s : FcmApiKeys × World) :
    (handleConfig id application s).1 = s.1.apply (configUpdate id application) := by
  rcases handleConfig_cases id application s with ⟨x, update, called⟩ | ⟨x, entry, pairs, update, called⟩
  · rw [update, called, deleteKey_table]
  · rw [update, called]
    rfl

end WebPush

/-! ## apns2 -/

namespace Apns2

open ApnsHandler

/-- What an application connects with: an enabled ios section, the token before the
    certificate. -/
def connectionOf (application : Application) : Option (IosToken ⊕ IosCertificate) :=
  application.iosConfig.bind fun config =>
    if config.enabled then (config.token.map .inl).or (config.certificate.map .inr) else none

/-- The notifier a connection gives, if its client can be constructed. -/
def connect (clients : ClientOutcomes) : IosToken ⊕ IosCertificate → Except Error Notifier
  | .inl token =>
    (Client.newToken clients token.pkcs8 token.keyId token.teamId (toEndpoint token.endpoint)).map
      fun client => ⟨client, token.apnsTopic, .token⟩
  | .inr certificate =>
    (Client.newCertificate clients certificate.pkcs12 certificate.password
      (toEndpoint certificate.endpoint)).map fun client => ⟨client, certificate.apnsTopic, .certificate⟩

/-- The update a connection makes: it binds the tenant or, when it fails, does nothing. -/
def connectionUpdate (clients : ClientOutcomes) (id : String) (connection : IosToken ⊕ IosCertificate) :
    Update String Notifier :=
  match connect clients connection with
  | .ok notifier => .put id notifier
  | .error _ => .skip

def configUpdate (clients : ClientOutcomes) (id : String) : Option Application → Update String Notifier
  | none => .drop id
  | some application =>
    match connectionOf application with
    | none => .drop application.id
    | some connection => connectionUpdate clients application.id connection

theorem deleteNotifier_table (id : String) (s : Notifiers × World) :
    (deleteNotifier id s).1 = s.1.apply (.drop id) := by
  rw [deleteNotifier]
  cases present : s.1.lookup id with
  | none => exact (Table.apply_drop_of_absent present).symm
  | some removed => rfl

theorem finishUpdate_table (crates : Crates) (application : Application)
    (updated : Except Error Unit × Notifiers × World) :
    (finishUpdate crates application updated).1 = updated.2.1 := by
  rw [finishUpdate]
  cases updated.1 <;> rfl

theorem updateToken_table (clients : ClientOutcomes) (application : Application) (token : IosToken)
    (s : Notifiers × World) :
    (updateToken clients application token s).2.1 =
      s.1.apply (connectionUpdate clients application.id (.inl token)) := by
  cases constructed :
    Client.newToken clients token.pkcs8 token.keyId token.teamId (toEndpoint token.endpoint) <;>
    simp [updateToken, addTokenNotifier, Notifier.token, connectionUpdate, connect, constructed,
      Except.map, insertNotifier, Table.apply]

theorem updateCertificate_table (clients : ClientOutcomes) (application : Application)
    (certificate : IosCertificate) (s : Notifiers × World) :
    (updateCertificate clients application certificate s).2.1 =
      s.1.apply (connectionUpdate clients application.id (.inr certificate)) := by
  cases constructed : Client.newCertificate clients certificate.pkcs12 certificate.password
      (toEndpoint certificate.endpoint) <;>
    simp [updateCertificate, addCertificateNotifier, Notifier.certificate, connectionUpdate, connect,
      constructed, Except.map, insertNotifier, Table.apply]

/-- What a configuration comes to: the removal of a tenant, or an attempt to connect. -/
theorem handleConfig_cases (crates : Crates) (clients : ClientOutcomes) (id : String)
    (application : Option Application) (s : Notifiers × World) :
    (∃ x, configUpdate clients id application = .drop x ∧
        handleConfig crates clients id application s = deleteNotifier x s) ∨
      (∃ application' token,
        configUpdate clients id application = connectionUpdate clients application'.id (.inl token) ∧
        handleConfig crates clients id application s =
          finishUpdate crates application' (updateToken clients application' token s)) ∨
      ∃ application' certificate,
        configUpdate clients id application = connectionUpdate clients application'.id (.inr certificate) ∧
        handleConfig crates clients id application s =
          finishUpdate crates application' (updateCertificate clients application' certificate s) := by
  cases application with
  | none => exact .inl ⟨id, rfl, rfl⟩
  | some application =>
    cases platform : application.iosConfig with
    | none =>
      exact .inl ⟨application.id, by simp [configUpdate, connectionOf, platform],
        by simp [handleConfig, platform]⟩
    | some config =>
      cases enabled : config.enabled with
      | false =>
        exact .inl ⟨application.id, by simp [configUpdate, connectionOf, platform, enabled],
          by simp [handleConfig, platform, enabled]⟩
      | true =>
        cases token : config.token with
        | some token' =>
          exact .inr (.inl ⟨application, token',
            by simp [configUpdate, connectionOf, platform, enabled, token],
            by simp [handleConfig, platform, enabled, token]⟩)
        | none =>
          cases certificate : config.certificate with
          | some certificate' =>
            exact .inr (.inr ⟨application, certificate',
              by simp [configUpdate, connectionOf, platform, enabled, token, certificate],
              by simp [handleConfig, platform, enabled, token, certificate]⟩)
          | none =>
            exact .inl ⟨application.id,
              by simp [configUpdate, connectionOf, platform, enabled, token, certificate],
              by simp [handleConfig, platform, enabled, token, certificate]⟩

theorem handleConfig_table (crates : Crates) (clients : ClientOutcomes) (id : String)
    (application : Option Application) (s : Notifiers × World) :
    (handleConfig crates clients id application s).1 = s.1.apply (configUpdate clients id application) := by
  rcases handleConfig_cases crates clients id application s with
    ⟨x, update, called⟩ | ⟨application', token, update, called⟩ | ⟨application', certificate, update, called⟩
  · rw [update, called, deleteNotifier_table]
  · rw [update, called, finishUpdate_table, updateToken_table]
  · rw [update, called, finishUpdate_table, updateCertificate_table]

end Apns2

/-! ## All push services -/

namespace PushService

variable (crates : Crates)

def configUpdate : (service : PushService) → (service.handler crates).Clients → String →
    Option Application → Update String (service.handler crates).Entry
  | .apns2, clients, id, application => Apns2.configUpdate clients id application
  | .fcm, _, id, application => Fcm.configUpdate id application
  | .webPush, _, id, application => WebPush.configUpdate id application

variable (service : PushService) (clients : (service.handler crates).Clients) (id : String)

theorem handleConfig_table (application : Option Application)
    (s : Table String (service.handler crates).Entry × World (service.handler crates).Call) :
    ((service.handler crates).handleConfig clients id application s).1 =
      s.1.apply (service.configUpdate crates clients id application) := by
  cases service with
  | apns2 => exact Apns2.handleConfig_table crates.apns2 clients id application s
  | fcm => exact Fcm.handleConfig_table id application s
  | webPush => exact WebPush.handleConfig_table id application s

theorem configUpdate_none : service.configUpdate crates clients id none = .drop id := by
  cases service <;> rfl

theorem handleConfig_none_of_absent
    {s : Table String (service.handler crates).Entry × World (service.handler crates).Call}
    (absent : s.1.lookup id = none) : (service.handler crates).handleConfig clients id none s = s := by
  cases service with
  | apns2 =>
    show Apns2.ApnsHandler.deleteNotifier id s = s
    simp only [Apns2.ApnsHandler.deleteNotifier, absent]
  | fcm =>
    show Fcm.FcmHandler.deleteKey id s = s
    simp only [Fcm.FcmHandler.deleteKey, absent]
  | webPush =>
    show WebPush.WebPushHandler.deleteKey id s = s
    simp only [WebPush.WebPushHandler.deleteKey, absent]

/-- An application is the only tenant that its own configuration can be about. -/
theorem target_configUpdate_some (application : Application) {x : String}
    (target : (service.configUpdate crates clients id (some application)).target = some x) :
    x = application.id := by
  cases service with
  | apns2 =>
    simp only [configUpdate, Apns2.configUpdate, Apns2.connectionUpdate] at target
    (repeat' split at target) <;> cases target <;> rfl
  | fcm =>
    simp only [configUpdate, Fcm.configUpdate] at target
    split at target <;> cases target <;> rfl
  | webPush =>
    simp only [configUpdate, WebPush.configUpdate] at target
    split at target <;> cases target <;> rfl

end PushService

/-! ## Runs of configuration calls -/

/-- A call of `handle_config`, with the way client construction turns out in it. -/
structure ConfigCall (Clients : Type) where
  clients : Clients
  id : String
  application : Option Application

namespace ConfigCall

variable {Clients : Type}

/-- The tenant a call concerns: that of its application, and without one that of its id. -/
def tenant (c : ConfigCall Clients) : String :=
  match c.application with
  | none => c.id
  | some application => application.id

def last (x : String) (calls : List (ConfigCall Clients)) : Option (ConfigCall Clients) :=
  (calls.filter (·.tenant = x)).getLast?

end ConfigCall

def fcmRun (calls : List (ConfigCall Unit)) : Fcm.FcmHandler.ApiKeys × Fcm.World :=
  calls.foldl (fun s c => Fcm.FcmHandler.handleConfig c.id c.application s) (∅, World.init)

def webPushRun (calls : List (ConfigCall Unit)) : WebPush.WebPushHandler.FcmApiKeys × WebPush.World :=
  calls.foldl (fun s c => WebPush.WebPushHandler.handleConfig c.id c.application s) (∅, World.init)

def apnsRun (crates : Apns2.Crates) (calls : List (ConfigCall Apns2.ClientOutcomes)) :
    Apns2.ApnsHandler.Notifiers × Apns2.World :=
  calls.foldl (fun s c => Apns2.ApnsHandler.handleConfig crates c.clients c.id c.application s)
    (∅, World.init)

theorem Fcm.about_configUpdate (x : String) (c : ConfigCall Unit) :
    (Fcm.configUpdate c.id c.application).about x =
      if c.tenant = x then some (c.application.bind Fcm.keyOf) else none := by
  cases called : c.application with
  | none => simp [Fcm.configUpdate, ConfigCall.tenant, called, Update.about]
  | some application =>
    cases key : Fcm.keyOf application <;>
      simp [Fcm.configUpdate, ConfigCall.tenant, called, key, Update.about]

theorem WebPush.about_configUpdate (x : String) (c : ConfigCall Unit) :
    (WebPush.configUpdate c.id c.application).about x =
      if c.tenant = x then some (c.application.bind WebPush.entryOf) else none := by
  cases called : c.application with
  | none => simp [WebPush.configUpdate, ConfigCall.tenant, called, Update.about]
  | some application =>
    cases entry : WebPush.entryOf application <;>
      simp [WebPush.configUpdate, ConfigCall.tenant, called, entry, Update.about]

theorem fcmRun_lookup (calls : List (ConfigCall Unit)) (x : String) :
    (fcmRun calls).1.lookup x =
      (ConfigCall.last x calls).bind fun c => c.application.bind Fcm.keyOf := by
  have table : (fcmRun calls).1 = _ := Table.table_foldl
    (fun s c => Fcm.handleConfig_table c.id c.application s) calls (∅, World.init)
  rw [table]
  exact Table.lookup_applyAll_map (fun c => by simp [Fcm.about_configUpdate]) calls

theorem webPushRun_lookup (calls : List (ConfigCall Unit)) (x : String) :
    (webPushRun calls).1.lookup x =
      (ConfigCall.last x calls).bind fun c => c.application.bind WebPush.entryOf := by
  have table : (webPushRun calls).1 = _ := Table.table_foldl
    (fun s c => WebPush.handleConfig_table c.id c.application s) calls (∅, World.init)
  rw [table]
  exact Table.lookup_applyAll_map (fun c => by simp [WebPush.about_configUpdate]) calls

/-- Per tenant, both tables hold what the last call about the tenant brought. -/
theorem fcm_webPush_last_writer (calls : List (ConfigCall Unit)) (x : String) :
    (∀ apiKey, (fcmRun calls).1.lookup x = some apiKey ↔
      ∃ c application config, ConfigCall.last x calls = some c ∧ c.application = some application ∧
        application.androidConfig = some config ∧ config.enabled = true ∧
        config.fcmApiKey = some apiKey) ∧
    (∀ entry, (webPushRun calls).1.lookup x = some entry ↔
      ∃ c application config, ConfigCall.last x calls = some c ∧ c.application = some application ∧
        application.webConfig = some config ∧ config.enabled = true ∧
        entry.fcmApiKey = config.fcmApiKey) ∧
    (∀ (c : ConfigCall Unit), c.tenant ≠ x →
      (∀ s, (Fcm.FcmHandler.handleConfig c.id c.application s).1.lookup x = s.1.lookup x) ∧
      (∀ s, (WebPush.WebPushHandler.handleConfig c.id c.application s).1.lookup x = s.1.lookup x)) := by
  refine ⟨fun apiKey => ?_, fun entry => ?_, fun c other => ⟨fun s => ?_, fun s => ?_⟩⟩
  · rw [fcmRun_lookup]
    simp only [Fcm.keyOf, Option.bind_eq_some_iff, Option.ite_none_right_eq_some]
    constructor
    · intro found
      obtain ⟨c, called, application, given, config, present, enabled, key⟩ := found
      exact ⟨c, application, config, called, given, present, enabled, key⟩
    · intro brought
      obtain ⟨c, application, config, called, given, present, enabled, key⟩ := brought
      exact ⟨c, called, application, given, config, present, enabled, key⟩
  · rw [webPushRun_lookup]
    simp only [WebPush.entryOf, Option.bind_eq_some_iff, Option.ite_none_right_eq_some, Option.some.injEq]
    constructor
    · intro found
      obtain ⟨c, called, application, given, config, present, enabled, same⟩ := found
      exact ⟨c, application, config, called, given, present, enabled, by rw [← same]⟩
    · intro brought
      obtain ⟨c, application, config, called, given, present, enabled, same⟩ := brought
      exact ⟨c, called, application, given, config, present, enabled, congrArg WebPush.ApiKey.mk same.symm⟩
  · rw [Fcm.handleConfig_table, Table.lookup_apply, Fcm.about_configUpdate x c, if_neg other]
    rfl
  · rw [WebPush.handleConfig_table, Table.lookup_apply, WebPush.about_configUpdate x c, if_neg other]
    rfl

/-! ## Runs with failing connections -/

namespace Apns2

open ApnsHandler

inductive ConfigOutcome where
  | delete
  | good (notifier : Notifier)
  | failed

/-- The endpoint of the push service that a configuration names. -/
def namedEndpoint (named : ConnectionEndpoint) : Endpoint :=
  if named = .production then .production else .sandbox

theorem toEndpoint_eq (named : ConnectionEndpoint) : toEndpoint named = namedEndpoint named := by
  cases named <;> rfl

theorem namedEndpoint_eq_production_iff (named : ConnectionEndpoint) :
    namedEndpoint named = .production ↔ named = .production := by
  cases named <;> decide

theorem namedEndpoint_eq_sandbox_iff (named : ConnectionEndpoint) :
    namedEndpoint named = .sandbox ↔ named = .sandbox := by
  cases named <;> decide

def tokenNotifier (token : IosToken) : Notifier where
  client := .token token.pkcs8 token.keyId token.teamId (namedEndpoint token.endpoint)
  topic := token.apnsTopic
  notifierType := .token

def certificateNotifier (certificate : IosCertificate) : Notifier where
  client := .certificate certificate.pkcs12 certificate.password (namedEndpoint certificate.endpoint)
  topic := certificate.apnsTopic
  notifierType := .certificate

/-- The outcome of a construction that fails with `error`, if it does. -/
def constructed (notifier : Notifier) : Option Error → ConfigOutcome
  | none => .good notifier
  | some _ => .failed

def configOutcome (c : ConfigCall ClientOutcomes) : ConfigOutcome :=
  match c.application with
  | none => .delete
  | some application =>
    match application.iosConfig with
    | none => .delete
    | some config =>
      if config.enabled = false then .delete
      else
        match config.token, config.certificate with
        | some token, _ =>
          constructed (tokenNotifier token)
            (c.clients.token token.pkcs8 token.keyId token.teamId (namedEndpoint token.endpoint))
        | none, some certificate =>
          constructed (certificateNotifier certificate)
            (c.clients.certificate certificate.pkcs12 certificate.password (namedEndpoint certificate.endpoint))
        | none, none => .delete

namespace ConfigOutcome

/-- The update of the tenant `x` that an outcome stands for. -/
def update (x : String) : ConfigOutcome → Update String Notifier
  | .delete => .drop x
  | .good notifier => .put x notifier
  | .failed => .skip

def isFailed : ConfigOutcome → Bool
  | .failed => true
  | _ => false

def entry : ConfigOutcome → Option Notifier
  | .good notifier => some notifier
  | _ => none

theorem about_update (x y : String) (outcome : ConfigOutcome) :
    (outcome.update y).about x = if y = x ∧ outcome.isFailed = false then some outcome.entry else none := by
  cases outcome <;> simp [update, Update.about, isFailed, entry]

end ConfigOutcome

theorem configUpdate_eq (c : ConfigCall ClientOutcomes) :
    configUpdate c.clients c.id c.application = (configOutcome c).update c.tenant := by
  cases called : c.application with
  | none => simp [configUpdate, configOutcome, ConfigCall.tenant, called, ConfigOutcome.update]
  | some application =>
    cases present : application.iosConfig with
    | none =>
      simp [configUpdate, connectionOf, configOutcome, ConfigCall.tenant, called, present, ConfigOutcome.update]
    | some config =>
      cases enabled : config.enabled with
      | false =>
        simp [configUpdate, connectionOf, configOutcome, ConfigCall.tenant, called, present, enabled,
          ConfigOutcome.update]
      | true =>
        cases token : config.token with
        | some token' =>
          cases result : c.clients.token token'.pkcs8 token'.keyId token'.teamId
              (namedEndpoint token'.endpoint) <;>
            simp [configUpdate, connectionOf, configOutcome, ConfigCall.tenant, called, present, enabled,
              token, connectionUpdate, connect, toEndpoint_eq, Client.newToken, result, constructed, tokenNotifier,
              ConfigOutcome.update, Except.map]
        | none =>
          cases certificate : config.certificate with
          | some certificate' =>
            cases result : c.clients.certificate certificate'.pkcs12 certificate'.password
                (namedEndpoint certificate'.endpoint) <;>
              simp [configUpdate, connectionOf, configOutcome, ConfigCall.tenant, called, present, enabled,
                token, certificate, connectionUpdate, connect, toEndpoint_eq, Client.newCertificate, result, constructed,
                certificateNotifier, ConfigOutcome.update, Except.map]
          | none =>
            simp [configUpdate, connectionOf, configOutcome, ConfigCall.tenant, called, present, enabled,
              token, certificate, ConfigOutcome.update]

/-- The last call that concerns `x` and did not fail. -/
def lastSettled (x : String) (calls : List (ConfigCall ClientOutcomes)) :
    Option (ConfigCall ClientOutcomes) :=
  (calls.filter fun c => c.tenant = x ∧ (configOutcome c).isFailed = false).getLast?

theorem apnsRun_lookup (crates : Crates) (calls : List (ConfigCall ClientOutcomes)) (x : String) :
    (apnsRun crates calls).1.lookup x =
      (lastSettled x calls).bind fun c => (configOutcome c).entry := by
  have table : (apnsRun crates calls).1 = _ := Table.table_foldl
    (fun s c => handleConfig_table crates c.clients c.id c.application s) calls (∅, World.init)
  rw [table]
  exact Table.lookup_applyAll_map
    (fun c => by simp [configUpdate_eq, ConfigOutcome.about_update]) calls

/-- A good update is one of the two kinds, and a token takes precedence. -/
theorem configOutcome_good {c : ConfigCall ClientOutcomes} {notifier : Notifier}
    (good : configOutcome c = .good notifier) :
    ∃ application config, c.application = some application ∧ application.iosConfig = some config ∧
      ((∃ token, config.token = some token ∧ notifier = tokenNotifier token) ∨
        (config.token = none ∧ ∃ certificate, config.certificate = some certificate ∧
          notifier = certificateNotifier certificate)) := by
  have of_constructed : ∀ {n : Notifier} {result : Option Error},
      constructed n result = .good notifier → notifier = n := by
    intro n result built
    cases result with
    | none => cases built; rfl
    | some error => cases built
  rw [configOutcome] at good
  cases called : c.application with
  | none => simp [called] at good
  | some application =>
    cases present : application.iosConfig with
    | none => simp [called, present] at good
    | some config =>
      cases enabled : config.enabled with
      | false => simp [called, present, enabled] at good
      | true =>
        refine ⟨application, config, rfl, present, ?_⟩
        cases token : config.token with
        | some token' =>
          simp only [called, present, enabled, token, Bool.true_eq_false, if_false] at good
          exact .inl ⟨token', rfl, of_constructed good⟩
        | none =>
          cases certificate : config.certificate with
          | some certificate' =>
            simp only [called, present, enabled, token, certificate, Bool.true_eq_false, if_false] at good
            exact .inr ⟨rfl, certificate', rfl, of_constructed good⟩
          | none => simp [called, present, enabled, token, certificate] at good

/-- Per tenant, the table holds the notifier of the last call that did not fail. -/
theorem apns_last_settled_writer (crates : Crates) (calls : List (ConfigCall ClientOutcomes)) (x : String) :
    (∀ notifier, (apnsRun crates calls).1.lookup x = some notifier ↔
      ∃ c, lastSettled x calls = some c ∧ configOutcome c = .good notifier) ∧
    (∀ c notifier, configOutcome c = .good notifier →
      ∃ application config, c.application = some application ∧ application.iosConfig = some config ∧
        ((∃ token, config.token = some token ∧ notifier = tokenNotifier token) ∨
          (config.token = none ∧ ∃ certificate, config.certificate = some certificate ∧
            notifier = certificateNotifier certificate))) ∧
    (∀ named, (namedEndpoint named = .production ↔ named = .production) ∧
      (namedEndpoint named = .sandbox ↔ named = .sandbox)) ∧
    (∀ c s, configOutcome c = .failed →
      (handleConfig crates c.clients c.id c.application s).1 = s.1) := by
  refine ⟨fun notifier => ?_, fun c notifier => configOutcome_good,
    fun named => ⟨namedEndpoint_eq_production_iff named, namedEndpoint_eq_sandbox_iff named⟩, fun c s failed => ?_⟩
  · rw [apnsRun_lookup, Option.bind_eq_some_iff]
    refine exists_congr fun c => and_congr_right fun _ => ?_
    cases outcome : configOutcome c <;> simp [ConfigOutcome.entry]
  · rw [handleConfig_table, configUpdate_eq, failed]
    rfl

end Apns2

end XorcNotifications
