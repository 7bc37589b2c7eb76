import XorcNotifications.Lib.Compaction
import XorcNotifications.Verified.TenantGauges
import XorcNotifications.Verified.TenantIsolation

/-!
# Starting again from a compacted topic

A service that starts reads the configuration topic from the beginning of its partitions,
and the topic is compacted.  The tenants it ends up with are those of a service that has
read every message there ever was, unless the last message about a tenant says nothing: the
entry that an earlier one has put is then lost.
-/

namespace XorcNotifications

open KeyedTables RequestConsumer Interleavings Compactions

/-! ## The gauge of applications -/

namespace PushService

variable (crates : Crates)

/-- The gauges are exact, as far as the service has them. -/
def GaugesExact : (service : PushService) → ConfigState (service.handler crates) → Prop
  | .apns2, s => Apns2.GaugesExact s
  | .fcm, s => ApplicationsExact s
  | .webPush, s => ApplicationsExact s

variable (service : PushService) {crates}

theorem applicationsExact {s : ConfigState (service.handler crates)} (exact : service.GaugesExact crates s) :
    ApplicationsExact s := by
  cases service with
  | apns2 => exact Apns2.GaugesExact.applications exact
  | fcm => exact exact
  | webPush => exact exact

theorem gaugesExact_start : service.GaugesExact crates (ConfigState.start _) := by
  cases service with
  | apns2 => exact Apns2.gaugesExact_start
  | fcm => rfl
  | webPush => rfl

theorem gaugesExact_processConfig {s s' : ConfigState (service.handler crates)}
    {input : (service.handler crates).Clients × BorrowedMessage} (exact : service.GaugesExact crates s)
    (processed : processConfig crates.protobuf s input = .ok s') : service.GaugesExact crates s' := by
  rw [processConfig] at processed
  cases made : configCall crates.protobuf input.2 with
  | error panic =>
    rw [made] at processed
    cases processed
  | ok call =>
    rw [made] at processed
    cases call with
    | none =>
      cases processed
      exact exact
    | some call =>
      cases processed
      cases service with
      | apns2 => exact Apns2.gaugesExact_handleConfig exact crates.apns2 input.1 call.1 call.2
      | fcm => exact Fcm.applications_handleConfig exact call.1 call.2
      | webPush => exact WebPush.applications_handleConfig exact call.1 call.2

theorem gaugesExact_handleConfigs {s s' : ConfigState (service.handler crates)}
    {inputs : List ((service.handler crates).Clients × BorrowedMessage)} (exact : service.GaugesExact crates s)
    (processed : handleConfigs crates.protobuf s inputs = .ok s') : service.GaugesExact crates s' := by
  induction inputs generalizing s with
  | nil =>
    cases processed
    exact exact
  | cons input inputs inductionHypothesis =>
    rw [handleConfigs] at processed
    cases one : processConfig crates.protobuf s input with
    | error panic =>
      rw [one] at processed
      cases processed
    | ok next =>
      rw [one] at processed
      exact inductionHypothesis (service.gaugesExact_processConfig exact one) processed

end PushService

/-! ## The topic -/

section Topic

variable (crates : Crates) (service : PushService) (clients : (service.handler crates).Clients)

theorem configKey_injective {k k' : String} (same : configKey k = configKey k') : k = k' := by
  have decoded := congrArg String.fromUTF8? same
  rw [configKey, configKey, TextSearch.fromUTF8?_toUTF8, TextSearch.fromUTF8?_toUTF8, Option.some.injEq,
    ← String.toList_inj, toList_configKey, toList_configKey, List.append_cancel_left_eq, List.cons.injEq] at decoded
  exact String.toList_inj.mp decoded.2

def messageKey (msg : BorrowedMessage) : Option Bytes := msg.key

/-- A message without a payload, by which a compacted topic knows that a key is gone. -/
def tombstone (msg : BorrowedMessage) : Bool := msg.payload.isNone

def tenantKey (u : String) : Option Bytes := some (configKey u)

theorem keyed_messageUpdate {msg : BorrowedMessage} (keyed : WellKeyed crates.protobuf msg) :
    Keyed messageKey tombstone (fun msg => messageUpdate crates service (clients, msg)) tenantKey msg := by
  constructor
  · intro u speaks
    by_contra other
    refine speaks (about_messageUpdate crates service clients keyed ?_)
    simpa [aboutTenant, messageKey, tenantKey] using other
  · intro u gone isKey
    obtain ⟨key, payload⟩ := msg
    obtain ⟨k, bare, hasKey, -⟩ := keyed
    cases hasKey
    have named : k = u := configKey_injective (Option.some.inj isKey)
    subst named
    have none : payload = none := Option.isNone_iff_eq_none.mp gone
    subst none
    show (messageUpdate crates service (clients, ⟨some (configKey k), .none⟩)).about k = _
    rw [messageUpdate_tombstone clients bare, Update.about, if_pos rfl]

/-- The message is of another type than an application. -/
def OtherType (pb : Protobuf) (msg : BorrowedMessage) : Prop :=
  ∃ decoder, msg.payload.bind pb.parseRequestWrapper = some decoder ∧
    decoder.getHeader.getFieldType ≠ "application.Application"

/-- No client can be made of the application.  Only apns2 makes one. -/
def Unconnected : (service : PushService) → (service.handler crates).Clients → Application → Prop
  | .apns2, clients, application => ∃ connection error,
    Apns2.connectionOf application = some connection ∧ Apns2.connect clients connection = .error error
  | .fcm, _, _ | .webPush, _, _ => False

/-- The message leaves every tenant as it is. -/
def Silent (msg : BorrowedMessage) : Prop :=
  OtherType crates.protobuf msg ∨ ∃ application,
    broughtApplication crates.protobuf msg.payload = some application ∧
      Unconnected crates service clients application

theorem configUpdate_some_eq_skip_iff (id : String) (application : Application) :
    service.configUpdate crates clients id (some application) = .skip ↔
      Unconnected crates service clients application := by
  cases service with
  | apns2 =>
    show Apns2.configUpdate clients id (some application) = .skip ↔ _
    rw [Apns2.configUpdate, Unconnected]
    cases Apns2.connectionOf application with
    | none => simp
    | some connection =>
      simp only [Apns2.connectionUpdate]
      cases connected : Apns2.connect clients connection <;> simp [connected]
  | fcm =>
    show Fcm.configUpdate id (some application) = .skip ↔ _
    rw [Fcm.configUpdate, Unconnected]
    cases Fcm.keyOf application <;> simp
  | webPush =>
    show WebPush.configUpdate id (some application) = .skip ↔ _
    rw [WebPush.configUpdate, Unconnected]
    cases WebPush.entryOf application <;> simp

theorem messageUpdate_eq_skip_iff (k : String) (payload : Option Bytes) :
    messageUpdate crates service (clients, ⟨some (configKey k), payload⟩) = .skip ↔
      Silent crates service clients ⟨some (configKey k), payload⟩ := by
  rw [messageUpdate, configCall_configKey, Silent, OtherType, broughtApplication]
  cases wrapper : payload.bind crates.protobuf.parseRequestWrapper with
  | none => simp [service.configUpdate_none]
  | some decoder =>
    by_cases typed : decoder.getHeader.getFieldType = "application.Application"
    · cases parsed : payload.bind crates.protobuf.parseApplication with
      | none => simp [typed, service.configUpdate_none]
      | some application => simp [typed, configUpdate_some_eq_skip_iff]
    · simp [typed]

/-- What a well-keyed message does not say about its own tenant it says about nobody. -/
theorem about_eq_none_iff {msg : BorrowedMessage} (keyed : WellKeyed crates.protobuf msg) {u : String}
    (isKey : msg.key = some (configKey u)) :
    (messageUpdate crates service (clients, msg)).about u = none ↔ Silent crates service clients msg := by
  obtain ⟨key, payload⟩ := msg
  cases isKey
  rw [← messageUpdate_eq_skip_iff]
  constructor
  · intro unsaid
    obtain ⟨k, bare, sameKey, agrees⟩ := keyed
    have named : u = k := configKey_injective (Option.some.inj sameKey)
    subst named
    have own : ∀ x, (messageUpdate crates service (clients, ⟨some (configKey u), payload⟩)).target = some x →
        x = u := fun x target => (target_messageUpdate clients target).trans (touchedTenant_of_agree bare agrees)
    cases updates : messageUpdate crates service (clients, ⟨some (configKey u), payload⟩) with
    | skip => rfl
    | put x entry =>
      rw [updates] at own unsaid
      rw [Update.about, if_pos (own x rfl)] at unsaid
      cases unsaid
    | drop x =>
      rw [updates] at own unsaid
      rw [Update.about, if_pos (own x rfl)] at unsaid
      cases unsaid
  · intro skips
    rw [skips]
    rfl

/-- Each partition of the topic has been compacted: the messages that are left are in their
    order, of each key those from some point on, and none of a key whose last message is a
    tombstone that may be gone. -/
def TopicCompacts (topic kept : List (List BorrowedMessage)) : Prop :=
  List.Forall₂ (Compacts messageKey tombstone) topic kept

theorem outlives_iff {reads : List BorrowedMessage} (keyed : ∀ msg ∈ reads, WellKeyed crates.protobuf msg)
    (u : String) :
    Outlives messageKey (fun msg => messageUpdate crates service (clients, msg)) tenantKey reads u ↔
      (∃ msg, (reads.filter (aboutTenant u)).getLast? = some msg ∧ Silent crates service clients msg) ∧
        (Table.applyAll ∅ (reads.map fun msg => messageUpdate crates service (clients, msg))).lookup u ≠ none := by
  refine and_congr_left' (exists_congr fun msg => and_congr_right fun isLast => ?_)
  obtain ⟨member, isKey⟩ := mem_about.mp (List.mem_of_getLast? isLast)
  exact about_eq_none_iff crates service clients (keyed msg member) isKey

theorem wellKeyed_reads {pb : Protobuf} {topic : List (List BorrowedMessage)}
    (keyed : ∀ partition ∈ topic, ∀ msg ∈ partition, WellKeyed pb msg) {reads : List BorrowedMessage}
    (interleaving : Interleaving topic reads) : ∀ msg ∈ reads, WellKeyed pb msg := by
  intro msg member
  obtain ⟨partition, isPartition, inside⟩ := interleaving.exists_mem member
  exact keyed partition isPartition msg inside

/-- A run over well-keyed messages has the table of its updates, and the gauge counts it. -/
theorem configRun_of_wellKeyed {reads : List BorrowedMessage}
    (keyed : ∀ msg ∈ reads, WellKeyed crates.protobuf msg) :
    ∃ s, configRun crates service clients reads = .ok s ∧
      s.1 = Table.applyAll ∅ (reads.map fun msg => messageUpdate crates service (clients, msg)) ∧
      s.2.metrics.numberOfApplications = s.1.size := by
  obtain ⟨s, ran, table⟩ := configRun_table crates service clients keyed
  exact ⟨s, ran, table, service.applicationsExact (service.gaugesExact_handleConfigs service.gaugesExact_start ran)⟩

end Topic

/-- From a topic with the messages of each key in one partition, any way of compacting it and of
    reading the partitions leads to the same tenants and the same gauge as reading the whole
    topic, exactly if no tenant has an entry although the last message about it says nothing. -/
theorem compacted_topic_replays_iff (crates : Crates) (service : PushService)
    (clients : (service.handler crates).Clients) {topic : List (List BorrowedMessage)}
    (keyed : ∀ partition ∈ topic, ∀ msg ∈ partition, WellKeyed crates.protobuf msg)
    (onePartition : ∀ key, InOnePart (hasKey messageKey key) topic) {reads : List BorrowedMessage}
    (interleaving : Interleaving topic reads) {s : ConfigState (service.handler crates)}
    (ran : configRun crates service clients reads = .ok s) :
    (∀ kept reads', TopicCompacts topic kept → Interleaving kept reads' →
        ∃ s', configRun crates service clients reads' = .ok s' ∧ s'.1 = s.1 ∧
          s'.2.metrics.numberOfApplications = s.2.metrics.numberOfApplications) ↔
      ∀ u msg, (reads.filter (aboutTenant u)).getLast? = some msg → Silent crates service clients msg →
        s.1.lookup u = none := by
  have keyedReads := wellKeyed_reads keyed interleaving
  have keyedTopic := fun partition isPartition msg inside =>
    keyed_messageUpdate crates service clients (keyed partition isPartition msg inside)
  obtain ⟨s₀, ran₀, table, gauge⟩ := configRun_of_wellKeyed crates service clients keyedReads
  cases ran.symm.trans ran₀
  have settled : (∀ u, ¬ Outlives messageKey (fun msg => messageUpdate crates service (clients, msg))
      tenantKey reads u) ↔ ∀ u msg, (reads.filter (aboutTenant u)).getLast? = some msg →
        Silent crates service clients msg → s.1.lookup u = none := by
    simp only [outlives_iff crates service clients keyedReads, table, not_and, not_not, forall_exists_index, and_imp]
  have keyedReads' : ∀ kept reads', TopicCompacts topic kept → Interleaving kept reads' →
      ∀ msg ∈ reads', WellKeyed crates.protobuf msg := fun kept reads' compacts interleaving' msg member =>
    keyedReads msg ((shortens_of_parts onePartition compacts interleaving interleaving').mem member)
  rw [← settled, ← replays_iff onePartition keyedTopic interleaving]
  constructor
  · intro replays kept reads' compacts interleaving'
    obtain ⟨s', ran', same, -⟩ := replays kept reads' compacts interleaving'
    obtain ⟨s₁, ran₁, table', -⟩ :=
      configRun_of_wellKeyed crates service clients (keyedReads' kept reads' compacts interleaving')
    cases ran'.symm.trans ran₁
    rw [← table', same, table]
  · intro replays kept reads' compacts interleaving'
    obtain ⟨s', ran', table', gauge'⟩ :=
      configRun_of_wellKeyed crates service clients (keyedReads' kept reads' compacts interleaving')
    have same : s'.1 = s.1 := by rw [table', replays kept reads' compacts interleaving', table]
    exact ⟨s', ran', same, by rw [gauge', same, gauge]⟩

theorem wellKeyed_tenantCrates {msg : BorrowedMessage} (isKey : msg.key = some (configKey "A")) :
    WellKeyed tenantCrates.protobuf msg := by
  refine ⟨"A", by decide, isKey, ?_⟩
  intro application brought
  obtain ⟨decoder, -, brought⟩ := Option.bind_eq_some_iff.mp brought
  split at brought
  · obtain ⟨payload, -, parsed⟩ := Option.bind_eq_some_iff.mp brought
    cases parsed
    rfl
  · cases brought

/-- A tenant that was configured and removed, and another partition. -/
def removedTopic : List (List BorrowedMessage) := [[configureA, ⟨some (configKey "A"), none⟩], []]

/-- Nothing is left of the topic, and nobody is missed. -/
theorem removed_tenant_replays :
    ∃ s s', configRun tenantCrates .fcm () removedTopic.flatten = .ok s ∧
      configRun tenantCrates .fcm () [] = .ok s' ∧ s'.1 = s.1 := by
  have keyed : ∀ partition ∈ removedTopic, ∀ msg ∈ partition, WellKeyed tenantCrates.protobuf msg := by
    intro partition isPartition msg inside
    refine wellKeyed_tenantCrates ?_
    simp only [removedTopic, List.mem_cons, List.not_mem_nil, or_false] at isPartition
    rcases isPartition with rfl | rfl
    · simp only [List.mem_cons, List.not_mem_nil, or_false] at inside
      rcases inside with rfl | rfl <;> rfl
    · cases inside
  have onePartition : ∀ key, InOnePart (hasKey messageKey key) removedTopic := by
    rintro key (_ | _ | i) (_ | _ | j) part part' atI atJ ⟨a, inA, -⟩ ⟨b, inB, -⟩ <;>
      simp_all [removedTopic]
  have interleaving := @Interleaving.of_parts _ [] removedTopic (by simp)
  obtain ⟨s, ran, -⟩ := configRun_of_wellKeyed tenantCrates .fcm () (wellKeyed_reads keyed interleaving)
  -- The last message of the topic is the tombstone, and that is not silent.
  have spoken : ∀ u msg, (removedTopic.flatten.filter (aboutTenant u)).getLast? = some msg →
      Silent tenantCrates .fcm () msg → s.1.lookup u = none := by
    intro u msg isLast silent
    have isTombstone : msg = ⟨some (configKey "A"), none⟩ := by
      by_cases named : configKey "A" = configKey u <;>
        simp_all [removedTopic, configureA, aboutTenant]
    subst isTombstone
    rcases silent with ⟨decoder, wrapper, -⟩ | ⟨application, brought, -⟩
    · cases wrapper
    · cases brought
  obtain ⟨s', ran', same, -⟩ := (compacted_topic_replays_iff tenantCrates .fcm () keyed onePartition
    interleaving ran).mpr spoken _ _ (compacts_map_compact removedTopic) (@Interleaving.of_parts _ [] _ (by simp))
  exact ⟨s, s', ran, ran', same⟩

end XorcNotifications
