import XorcNotifications.Verified.TenantTables

/-!
# Tenant gauges

Every path of `handle_config` that changes a tenant table sets the gauge of applications
from it.  The two gauges of notifiers are never read from the table: they go up in the
constructors and down in `drop`.  That they still count the table is an invariant of the
calls, kept by each write because it drops exactly the notifier it takes out.
-/

namespace XorcNotifications

open KeyedTables

/-- The gauge of applications is the size of the tenant table. -/
def ApplicationsExact {Entry Call : Type} (s : Table String Entry × World Call) : Prop :=
  s.2.metrics.numberOfApplications = s.1.size

/-! ## fcm -/

namespace Fcm

open FcmHandler

theorem applications_deleteKey {s : ApiKeys × World} (exact : ApplicationsExact s) (id : String) :
    ApplicationsExact (deleteKey id s) := by
  rw [deleteKey]
  cases s.1.lookup id with
  | none => exact exact
  | some apiKey => rfl

theorem applications_handleConfig {s : ApiKeys × World} (exact : ApplicationsExact s) (id : String)
    (application : Option Application) : ApplicationsExact (handleConfig id application s) := by
  rcases handleConfig_cases id application s with ⟨x, -, called⟩ | ⟨x, apiKey, pairs, -, called⟩
  · rw [called]
    exact applications_deleteKey exact x
  · rw [called]
    rfl

end Fcm

/-! ## web_push -/

namespace WebPush

open WebPushHandler

theorem applications_deleteKey {s : FcmApiKeys × World} (exact : ApplicationsExact s) (id : String) :
    ApplicationsExact (deleteKey id s) := by
  rw [deleteKey]
  cases s.1.lookup id with
  | none => exact exact
  | some entity => rfl

theorem applications_handleConfig {s : FcmApiKeys × World} (exact : ApplicationsExact s) (id : String)
    (application : Option Application) : ApplicationsExact (handleConfig id application s) := by
  rcases handleConfig_cases id application s with ⟨x, -, called⟩ | ⟨x, entry, pairs, -, called⟩
  · rw [called]
    exact applications_deleteKey exact x
  · rw [called]
    rfl

end WebPush

/-! ## apns2 -/

namespace Apns2

open ApnsHandler

/-- The gauge of the notifiers of one type. -/
def NotifierType.consumers (w : World) : NotifierType → Int
  | .token => w.metrics.tokenConsumers
  | .certificate => w.metrics.certificateConsumers

def Notifier.hasType (notifierType : NotifierType) (notifier : Notifier) : Bool :=
  notifier.notifierType = notifierType

/-- Both gauges of notifiers count the table. -/
def ConsumersExact (s : Notifiers × World) : Prop :=
  ∀ notifierType : NotifierType,
    notifierType.consumers s.2 = s.1.count (Notifier.hasType notifierType)

structure GaugesExact (s : Notifiers × World) : Prop where
  applications : ApplicationsExact s
  consumers : ConsumersExact s

/-- A new notifier is counted before it is in the table. -/
def CountedAhead (notifier : Notifier) (s : Notifiers × World) : Prop :=
  ∀ notifierType : NotifierType,
    notifierType.consumers s.2 = s.1.count (Notifier.hasType notifierType) +
      Table.countOf (Notifier.hasType notifierType) (some notifier)

theorem consumers_drop (notifier : Notifier) (w : World) (notifierType : NotifierType) :
    notifierType.consumers (notifier.drop w) =
      notifierType.consumers w - Table.countOf (Notifier.hasType notifierType) (some notifier) := by
  obtain ⟨client, topic, dropped⟩ := notifier
  cases dropped <;> cases notifierType <;>
    simp [NotifierType.consumers, Notifier.drop, World.addTokenConsumers,
      World.addCertificateConsumers, Table.countOf, Notifier.hasType, Int.sub_eq_add_neg]

theorem consumers_insertNotifier {s : Notifiers × World} {notifier : Notifier}
    (ahead : CountedAhead notifier s) (id : String) : ConsumersExact (insertNotifier s id notifier) := by
  intro notifierType
  have counted := ahead notifierType
  have inserted := Table.count_insert (Notifier.hasType notifierType) s.1 id notifier
  rw [insertNotifier]
  cases found : s.1.lookup id with
  | none =>
    rw [found, Table.countOf, Option.any_none, if_neg Bool.false_ne_true] at inserted
    simp only
    omega
  | some replaced =>
    have dropped := consumers_drop replaced s.2 notifierType
    rw [found] at inserted
    simp only
    omega

theorem countedAhead_token {s : Notifiers × World} (exact : ConsumersExact s) (client : Client)
    (topic : String) : CountedAhead ⟨client, topic, .token⟩ (s.1, s.2.addTokenConsumers 1) := by
  intro notifierType
  have counted := exact notifierType
  cases notifierType with
  | token => simpa [NotifierType.consumers, World.addTokenConsumers, Table.countOf, Notifier.hasType] using counted
  | certificate =>
    simpa [NotifierType.consumers, World.addTokenConsumers, Table.countOf, Notifier.hasType] using counted

theorem countedAhead_certificate {s : Notifiers × World} (exact : ConsumersExact s) (client : Client)
    (topic : String) :
    CountedAhead ⟨client, topic, .certificate⟩ (s.1, s.2.addCertificateConsumers 1) := by
  intro notifierType
  have counted := exact notifierType
  cases notifierType with
  | token =>
    simpa [NotifierType.consumers, World.addCertificateConsumers, Table.countOf, Notifier.hasType] using counted
  | certificate =>
    simpa [NotifierType.consumers, World.addCertificateConsumers, Table.countOf, Notifier.hasType] using counted

/-- A construction that fails counts nothing and writes nothing. -/
theorem consumers_addTokenNotifier {s : Notifiers × World} (exact : ConsumersExact s)
    (clients : ClientOutcomes) (token : IosToken) (endpoint : Endpoint) (id apnsTopic : String) :
    ConsumersExact (addTokenNotifier clients token endpoint id apnsTopic s).2 := by
  rw [addTokenNotifier, Notifier.token]
  cases Client.newToken clients token.pkcs8 token.keyId token.teamId endpoint with
  | error error => exact exact
  | ok client => exact consumers_insertNotifier (countedAhead_token exact client apnsTopic) id

theorem consumers_addCertificateNotifier {s : Notifiers × World} (exact : ConsumersExact s)
    (clients : ClientOutcomes) (certificate : IosCertificate) (endpoint : Endpoint)
    (id apnsTopic : String) :
    ConsumersExact (addCertificateNotifier clients certificate endpoint id apnsTopic s).2 := by
  rw [addCertificateNotifier, Notifier.certificate]
  cases Client.newCertificate clients certificate.pkcs12 certificate.password endpoint with
  | error error => exact exact
  | ok client => exact consumers_insertNotifier (countedAhead_certificate exact client apnsTopic) id

theorem consumers_erase {s : Notifiers × World} (exact : ConsumersExact s) {id : String}
    {removed : Notifier} (found : s.1.lookup id = some removed) :
    ConsumersExact (s.1.erase id, removed.drop s.2) := by
  intro notifierType
  have counted := exact notifierType
  have erased := Table.count_erase (Notifier.hasType notifierType) s.1 id
  have dropped := consumers_drop removed s.2 notifierType
  rw [found] at erased
  simp only
  omega

/-- A removal drops the notifier before the applications are counted again. -/
theorem gaugesExact_deleteNotifier {s : Notifiers × World} (exact : GaugesExact s) (id : String) :
    GaugesExact (deleteNotifier id s) := by
  rw [deleteNotifier]
  cases found : s.1.lookup id with
  | none => exact exact
  | some removed => exact ⟨rfl, consumers_erase exact.consumers found⟩

theorem gaugesExact_finishUpdate {updated : Except Error Unit × Notifiers × World}
    (exact : ConsumersExact updated.2) (crates : Crates) (application : Application) :
    GaugesExact (finishUpdate crates application updated) := by
  rw [finishUpdate]
  cases updated.1 with
  | error error => exact ⟨rfl, exact⟩
  | ok done => exact ⟨rfl, exact⟩

theorem gaugesExact_handleConfig {s : Notifiers × World} (exact : GaugesExact s) (crates : Crates)
    (clients : ClientOutcomes) (id : String) (application : Option Application) :
    GaugesExact (handleConfig crates clients id application s) := by
  rcases handleConfig_cases crates clients id application s with
    ⟨x, -, called⟩ | ⟨application', token, -, called⟩ | ⟨application', certificate, -, called⟩
  · rw [called]
    exact gaugesExact_deleteNotifier exact x
  · rw [called]
    refine gaugesExact_finishUpdate ?_ crates application'
    -- The log record that comes first moves no gauge.
    exact consumers_addTokenNotifier (s := (s.1, s.2.log _ _ _)) exact.consumers clients token _ _ _
  · rw [called]
    refine gaugesExact_finishUpdate ?_ crates application'
    exact consumers_addCertificateNotifier (s := (s.1, s.2.log _ _ _)) exact.consumers clients
      certificate _ _ _

theorem gaugesExact_start : GaugesExact (∅, World.init) := by
  refine ⟨rfl, fun notifierType => ?_⟩
  rw [Table.count_empty]
  cases notifierType <;> rfl

/-- Every notifier has one of the two types. -/
theorem count_types (notifiers : Notifiers) :
    notifiers.count (Notifier.hasType .token) + notifiers.count (Notifier.hasType .certificate) =
      notifiers.size := by
  rw [← Table.count_add_count_not (Notifier.hasType .token)]
  congr 2
  funext notifier
  obtain ⟨client, topic, notifierType⟩ := notifier
  cases notifierType <;> rfl

end Apns2

/-! ## Runs of configuration calls -/

theorem applications_fcmRun (calls : List (ConfigCall Unit)) : ApplicationsExact (fcmRun calls) :=
  List.foldlRecOn calls _ rfl fun _ exact c _ => Fcm.applications_handleConfig exact c.id c.application

theorem applications_webPushRun (calls : List (ConfigCall Unit)) :
    ApplicationsExact (webPushRun calls) :=
  List.foldlRecOn calls _ rfl fun _ exact c _ =>
    WebPush.applications_handleConfig exact c.id c.application

theorem gaugesExact_apnsRun (crates : Apns2.Crates) (calls : List (ConfigCall Apns2.ClientOutcomes)) :
    Apns2.GaugesExact (apnsRun crates calls) :=
  List.foldlRecOn calls _ Apns2.gaugesExact_start fun _ exact c _ =>
    Apns2.gaugesExact_handleConfig exact crates c.clients c.id c.application

/-- After any calls of `handle_config` the gauges are what the tables hold. -/
theorem tenant_gauges_exact (crates : Apns2.Crates) (keyCalls : List (ConfigCall Unit))
    (calls : List (ConfigCall Apns2.ClientOutcomes)) :
    (fcmRun keyCalls).2.metrics.numberOfApplications = (fcmRun keyCalls).1.size ∧
    (webPushRun keyCalls).2.metrics.numberOfApplications = (webPushRun keyCalls).1.size ∧
    let s := apnsRun crates calls
    s.2.metrics.numberOfApplications = s.1.size ∧
      s.2.metrics.tokenConsumers = s.1.count (fun notifier => notifier.notifierType = .token) ∧
      s.2.metrics.certificateConsumers =
        s.1.count (fun notifier => notifier.notifierType = .certificate) ∧
      s.2.metrics.tokenConsumers + s.2.metrics.certificateConsumers =
        s.2.metrics.numberOfApplications ∧
      0 ≤ s.2.metrics.tokenConsumers ∧ 0 ≤ s.2.metrics.certificateConsumers ∧
      0 ≤ s.2.metrics.numberOfApplications := by
  refine ⟨applications_fcmRun keyCalls, applications_webPushRun keyCalls, ?_⟩
  intro s
  have exact := gaugesExact_apnsRun crates calls
  have applications : s.2.metrics.numberOfApplications = s.1.size := exact.applications
  have tokens : s.2.metrics.tokenConsumers = s.1.count (Apns2.Notifier.hasType .token) :=
    exact.consumers .token
  have certificates : s.2.metrics.certificateConsumers = s.1.count (Apns2.Notifier.hasType .certificate) :=
    exact.consumers .certificate
  have types := Apns2.count_types s.1
  exact ⟨applications, tokens, certificates, by omega, by omega, by omega, by omega⟩

end XorcNotifications
