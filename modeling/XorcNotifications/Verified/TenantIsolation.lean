import XorcNotifications.Lib.Interleaving
import XorcNotifications.Verified.ConfigTopic

/-!
# Tenants on the configuration topic

Two ids travel with a configuration message: the one its key names, and the one of the
application it brings.  The second one counts when there is one.  Where the two agree, a
message is about one tenant, and what becomes of a tenant is a matter of the messages
about it.
-/

namespace XorcNotifications

open KeyedTables RequestConsumer Interleavings

section Messages

variable (crates : Crates) (service : PushService)

def broughtApplication (pb : Protobuf) (payload : Option Bytes) : Option Application :=
  (payload.bind pb.parseRequestWrapper).bind fun decoder =>
    if decoder.getHeader.getFieldType = "application.Application" then
      payload.bind pb.parseApplication
    else none

/-- The payload brings no application of another tenant than `k`. -/
def Agrees (pb : Protobuf) (k : String) (payload : Option Bytes) : Prop :=
  ∀ application, broughtApplication pb payload = some application → application.id = k

/-- The tenant that a message with the key of `k` is about. -/
def touchedTenant (pb : Protobuf) (k : String) (payload : Option Bytes) : String :=
  ((broughtApplication pb payload).map (·.id)).getD (namedTenant k)

def messageUpdate (input : (service.handler crates).Clients × BorrowedMessage) :
    Update String (service.handler crates).Entry :=
  match configCall crates.protobuf input.2 with
  | .ok (some (id, application)) => service.configUpdate crates input.1 id application
  | _ => .skip

variable {crates service}

theorem processConfig_table {s s' : ConfigState (service.handler crates)}
    {input : (service.handler crates).Clients × BorrowedMessage}
    (processed : processConfig crates.protobuf s input = .ok s') :
    s'.1 = s.1.apply (messageUpdate crates service input) := by
  rw [processConfig] at processed
  rw [messageUpdate]
  cases made : configCall crates.protobuf input.2 with
  | error panic =>
    rw [made] at processed
    cases processed
  | ok call =>
    rw [made] at processed
    cases call with
    | none =>
      cases processed
      rfl
    | some call =>
      cases processed
      exact service.handleConfig_table crates input.1 call.1 call.2 s

theorem handleConfigs_table {s s' : ConfigState (service.handler crates)}
    {inputs : List ((service.handler crates).Clients × BorrowedMessage)}
    (processed : handleConfigs crates.protobuf s inputs = .ok s') :
    s'.1 = s.1.applyAll (inputs.map (messageUpdate crates service)) := by
  induction inputs generalizing s with
  | nil =>
    cases processed
    rfl
  | cons input inputs inductionHypothesis =>
    simp only [handleConfigs] at processed
    cases one : processConfig crates.protobuf s input with
    | error panic =>
      rw [one] at processed
      cases processed
    | ok next =>
      rw [one] at processed
      rw [inductionHypothesis processed, processConfig_table one]
      rfl

theorem target_messageUpdate (clients : (service.handler crates).Clients) {k : String}
    {payload : Option Bytes} {x : String}
    (target : (messageUpdate crates service (clients, ⟨some (configKey k), payload⟩)).target = some x) :
    x = touchedTenant crates.protobuf k payload := by
  rw [messageUpdate] at target
  rw [configCall_configKey] at target
  rw [touchedTenant, broughtApplication]
  cases wrapper : payload.bind crates.protobuf.parseRequestWrapper with
  | none =>
    simp only [wrapper, service.configUpdate_none] at target
    cases target
    rfl
  | some decoder =>
    by_cases typed : decoder.getHeader.getFieldType = "application.Application"
    · simp only [wrapper, typed, if_true] at target
      rw [Option.bind_some, if_pos typed]
      cases brought : payload.bind crates.protobuf.parseApplication with
      | none =>
        rw [brought, service.configUpdate_none] at target
        cases target
        rfl
      | some application =>
        rw [brought] at target
        exact service.target_configUpdate_some crates clients _ application target
    · simp only [wrapper, typed, if_false] at target
      cases target

theorem touchedTenant_of_agree {pb : Protobuf} {k : String} {payload : Option Bytes}
    (bare : '|' ∉ k.toList) (agrees : Agrees pb k payload) : touchedTenant pb k payload = k := by
  rw [touchedTenant]
  cases brought : broughtApplication pb payload with
  | none => exact namedTenant_of_not_mem bare
  | some application => exact agrees application brought

theorem messageUpdate_tombstone (clients : (service.handler crates).Clients) {k : String}
    (bare : '|' ∉ k.toList) :
    messageUpdate crates service (clients, ⟨some (configKey k), none⟩) = .drop k := by
  rw [messageUpdate]
  rw [configCall_configKey]
  show service.configUpdate crates clients (namedTenant k) none = .drop k
  rw [service.configUpdate_none, namedTenant_of_not_mem bare]

end Messages

/-! ## One message, one tenant -/

section OneMessage

variable (crates : Crates) (service : PushService)

theorem lookup_processConfig {s s' : ConfigState (service.handler crates)}
    {clients : (service.handler crates).Clients} {k : String} {payload : Option Bytes} {x : String}
    (processed : processConfig crates.protobuf s (clients, ⟨some (configKey k), payload⟩) = .ok s')
    (other : x ≠ touchedTenant crates.protobuf k payload) : s'.1.lookup x = s.1.lookup x := by
  rw [processConfig_table processed]
  exact Table.lookup_apply_of_ne fun target => other (target_messageUpdate clients target)

/-- The last message with the key of `k` is at position `j` and has no payload. -/
def LastIsTombstone (inputs : List ((service.handler crates).Clients × BorrowedMessage)) (k : String)
    (j : Nat) : Prop :=
  (∃ clients, inputs[j]? = some (clients, ⟨some (configKey k), none⟩)) ∧
    ∀ (l : Nat) clients payload, j < l → inputs[l]? ≠ some (clients, ⟨some (configKey k), payload⟩)

variable {crates service} in
/-- Such a message ends whatever messages with that key have put. -/
theorem not_putBy_of_tombstone {inputs : List ((service.handler crates).Clients × BorrowedMessage)}
    {k : String} (bare : '|' ∉ k.toList)
    (agrees : ∀ clients payload, (clients, ⟨some (configKey k), payload⟩) ∈ inputs →
      Agrees crates.protobuf k payload)
    {j : Nat} (tombstone : LastIsTombstone crates service inputs k j) {i : Nat}
    {clients : (service.handler crates).Clients} {payload : Option Bytes}
    (atI : inputs[i]? = some (clients, ⟨some (configKey k), payload⟩)) (x : String) :
    ¬ PutBy (inputs.map (messageUpdate crates service)) x i := by
  intro putBy
  obtain ⟨⟨value, put⟩, -⟩ := id putBy
  obtain ⟨⟨clients', atJ⟩, last⟩ := tombstone
  -- The message can only have put the tenant of its key, which the last one has removed.
  rw [List.getElem?_map, atI, Option.map_some, Option.some.injEq] at put
  have isNamed : x = k := by
    rw [← touchedTenant_of_agree bare (agrees clients payload (List.mem_of_getElem? atI))]
    exact target_messageUpdate clients (congrArg Update.target put)
  subst isNamed
  have earlier : i ≤ j := Nat.le_of_not_lt fun after => last i clients payload after atI
  refine not_putBy_of_dropped earlier ?_ putBy
  rw [List.getElem?_map, atJ, Option.map_some, messageUpdate_tombstone clients' bare]

/-- A message with the key of `k` leaves every tenant alone but the one it is about, which is
    `k` unless it brings the application of another one.  Where no message with that key
    does so, a last one without a payload leaves nothing that any of them has put. -/
theorem config_touches_one_tenant :
    (∀ (s s' : ConfigState (service.handler crates)) clients k payload x,
      processConfig crates.protobuf s (clients, ⟨some (configKey k), payload⟩) = .ok s' →
      (x ≠ touchedTenant crates.protobuf k payload → s'.1.lookup x = s.1.lookup x) ∧
      ('|' ∉ k.toList → Agrees crates.protobuf k payload → x ≠ k → s'.1.lookup x = s.1.lookup x)) ∧
    ∀ (inputs : List ((service.handler crates).Clients × BorrowedMessage)) (s : ConfigState _)
      (k : String) (j : Nat),
      '|' ∉ k.toList → handleConfigs crates.protobuf (ConfigState.start _) inputs = .ok s →
      (∀ clients payload, (clients, ⟨some (configKey k), payload⟩) ∈ inputs →
        Agrees crates.protobuf k payload) →
      LastIsTombstone crates service inputs k j →
      (∀ (i : Nat) clients payload, inputs[i]? = some (clients, ⟨some (configKey k), payload⟩) →
        ∀ x, ¬ PutBy (inputs.map (messageUpdate crates service)) x i) ∧
      ∀ x entry, s.1.lookup x = some entry → ∃ (i : Nat) (clients : _) (msg : BorrowedMessage),
        inputs[i]? = some (clients, msg) ∧ msg.key ≠ some (configKey k) ∧
        messageUpdate crates service (clients, msg) = .put x entry ∧
        PutBy (inputs.map (messageUpdate crates service)) x i := by
  refine ⟨fun s s' clients k payload x processed => ⟨?_, fun bare agrees other => ?_⟩, ?_⟩
  · exact lookup_processConfig crates service processed
  · refine lookup_processConfig crates service processed ?_
    rw [touchedTenant_of_agree bare agrees]
    exact other
  · intro inputs s k j bare processed agrees tombstone
    have gone : ∀ (i : Nat) clients payload, inputs[i]? = some (clients, ⟨some (configKey k), payload⟩) →
        ∀ x, ¬ PutBy (inputs.map (messageUpdate crates service)) x i :=
      fun i clients payload => not_putBy_of_tombstone bare agrees tombstone
    refine ⟨gone, fun x entry found => ?_⟩
    rw [handleConfigs_table processed] at found
    obtain ⟨i, position, putBy⟩ := exists_putBy_of_lookup found
    rw [List.getElem?_map, Option.map_eq_some_iff] at position
    obtain ⟨⟨clients, msg⟩, atI, put⟩ := position
    refine ⟨i, clients, msg, atI, fun sameKey => ?_, put, putBy⟩
    obtain ⟨key, payload⟩ := msg
    cases sameKey
    exact gone i clients payload atI x putBy

end OneMessage

def foreignCrates : Crates :=
  sampleCrates (sampleProtobuf "application.Application" none none (some (sampleApplication "B")))

/-- A message with the key of `A` gives `B` an entry, which a later message with that key and
    no payload does not take away. -/
theorem foreign_application_stays :
    ∃ s, handleConfigs foreignCrates.protobuf (ConfigState.start ((PushService.fcm).handler foreignCrates))
        [((), ⟨some (configKey "A"), some ⟨#[1]⟩⟩), ((), ⟨some (configKey "A"), none⟩)] = .ok s ∧
      s.1.lookup "B" = some "key" := by
  have brings : configCall foreignCrates.protobuf ⟨some (configKey "A"), some ⟨#[1]⟩⟩ =
      .ok (some ("A", some (sampleApplication "B"))) := by
    rw [configCall_configKey, namedTenant_of_not_mem (by decide)]
    rfl
  have tombstone : configCall foreignCrates.protobuf ⟨some (configKey "A"), none⟩ =
      .ok (some ("A", none)) := by
    rw [configCall_configKey, namedTenant_of_not_mem (by decide)]
    rfl
  refine ⟨Fcm.FcmHandler.handleConfig "A" none
    (Fcm.FcmHandler.handleConfig "A" (some (sampleApplication "B")) (∅, World.init)), ?_, by decide⟩
  simp only [handleConfigs, processConfig, brings, tombstone]
  rfl

/-! ## Two runs -/

section TwoRuns

variable (crates : Crates) (service : PushService) (clients : (service.handler crates).Clients)

/-- The configuration loop from the empty table, where the construction of a client is the
    same function throughout. -/
def configRun (msgs : List BorrowedMessage) : Except Panic (ConfigState (service.handler crates)) :=
  handleConfigs crates.protobuf (ConfigState.start _) (msgs.map fun msg => (clients, msg))

/-- The message has the key of some tenant, and brings no application of another one. -/
def WellKeyed (pb : Protobuf) (msg : BorrowedMessage) : Prop :=
  ∃ k, '|' ∉ k.toList ∧ msg.key = some (configKey k) ∧ Agrees pb k msg.payload

def aboutTenant (u : String) (msg : BorrowedMessage) : Bool := msg.key = some (configKey u)

theorem segmentedKey_configKey (k : String) (payload : Option Bytes) :
    SegmentedKey ⟨some (configKey k), payload⟩ := by
  intro key decoded _
  rw [Option.bind_some, configKey, TextSearch.fromUTF8?_toUTF8, Option.some.injEq] at decoded
  rw [← decoded, toList_configKey]
  exact List.mem_append_right _ List.mem_cons_self

/-- With well-keyed messages the loop runs to the end, and its table is that of the updates. -/
theorem configRun_table {msgs : List BorrowedMessage} (keyed : ∀ msg ∈ msgs, WellKeyed crates.protobuf msg) :
    ∃ s, configRun crates service clients msgs = .ok s ∧
      s.1 = Table.applyAll ∅ (msgs.map fun msg => messageUpdate crates service (clients, msg)) := by
  have passes : ∀ input ∈ msgs.map (fun msg => (clients, msg)),
      ∃ call, configCall crates.protobuf input.2 = .ok call := by
    intro input member
    obtain ⟨⟨key, payload⟩, inside, rfl⟩ := List.mem_map.mp member
    obtain ⟨k, -, isKey, -⟩ := keyed _ inside
    cases isKey
    exact (configCall_ok_iff crates.protobuf _).mpr (segmentedKey_configKey k payload)
  have processed := handleConfigs_of_ok crates.protobuf (ConfigState.start _) _ passes
  refine ⟨_, processed, ?_⟩
  rw [handleConfigs_table processed, List.map_map]
  rfl

theorem about_messageUpdate {msg : BorrowedMessage} (keyed : WellKeyed crates.protobuf msg) {u : String}
    (other : aboutTenant u msg = false) :
    (messageUpdate crates service (clients, msg)).about u = none := by
  obtain ⟨key, payload⟩ := msg
  obtain ⟨k, bare, isKey, agrees⟩ := keyed
  cases isKey
  refine Update.about_eq_none fun target => ?_
  have isNamed := target_messageUpdate clients target
  rw [touchedTenant_of_agree bare agrees] at isNamed
  subst isNamed
  simp [aboutTenant] at other

/-- A notification sees of the tenant table only the entry of its tenant. -/
theorem handleNotification_congr {tenants tenants' : Table String (service.handler crates).Entry}
    {event : PushNotification} (same : tenants.lookup event.universeId = tenants'.lookup event.universeId)
    (key : Option Bytes) :
    (service.handler crates).handleNotification tenants key event =
      (service.handler crates).handleNotification tenants' key event := by
  cases service with
  | apns2 =>
    show Apns2.ApnsHandler.handleNotification _ _ tenants key event = _
    rw [Apns2.ApnsHandler.handleNotification, same]
    rfl
  | fcm =>
    show Fcm.FcmHandler.handleNotification _ _ tenants key event = _
    rw [Fcm.FcmHandler.handleNotification, same]
    rfl
  | webPush =>
    show WebPush.WebPushHandler.handleNotification _ _ tenants key event = _
    rw [WebPush.WebPushHandler.handleNotification, same]
    rfl

/-- Two runs with the same messages about `u` leave `u` with the same entry. -/
theorem lookup_configRun {msgs msgs' : List BorrowedMessage} {u : String}
    (keyed : ∀ msg ∈ msgs, WellKeyed crates.protobuf msg)
    (keyed' : ∀ msg ∈ msgs', WellKeyed crates.protobuf msg)
    (same : msgs.filter (aboutTenant u) = msgs'.filter (aboutTenant u)) :
    ∃ s s', configRun crates service clients msgs = .ok s ∧
      configRun crates service clients msgs' = .ok s' ∧ s.1.lookup u = s'.1.lookup u := by
  obtain ⟨s, ran, table⟩ := configRun_table crates service clients keyed
  obtain ⟨s', ran', table'⟩ := configRun_table crates service clients keyed'
  refine ⟨s, s', ran, ran', ?_⟩
  rw [table, table']
  refine Table.lookup_applyAll_congr ?_
  rw [Table.filterMap_about_filter fun msg member => about_messageUpdate crates service clients (keyed msg member),
    Table.filterMap_about_filter fun msg member => about_messageUpdate crates service clients (keyed' msg member),
    same]

/-- What becomes of a tenant is a matter of the messages about it: its entry, and with it
    what a notification for it does.  So the order in which partitions are read does not
    matter when all messages about a tenant are in one of them. -/
theorem tenants_isolated :
    (∀ msgs msgs' u, (∀ msg ∈ msgs, WellKeyed crates.protobuf msg) →
      (∀ msg ∈ msgs', WellKeyed crates.protobuf msg) →
      msgs.filter (aboutTenant u) = msgs'.filter (aboutTenant u) →
      ∃ s s', configRun crates service clients msgs = .ok s ∧
        configRun crates service clients msgs' = .ok s' ∧ s.1.lookup u = s'.1.lookup u ∧
        ∀ key event, event.universeId = u →
          (service.handler crates).handleNotification s.1 key event =
            (service.handler crates).handleNotification s'.1 key event) ∧
    ∀ partitions msgs msgs', (∀ part ∈ partitions, ∀ msg ∈ part, WellKeyed crates.protobuf msg) →
      (∀ u, InOnePart (aboutTenant u) partitions) →
      Interleaving partitions msgs → Interleaving partitions msgs' →
      ∃ s s', configRun crates service clients msgs = .ok s ∧
        configRun crates service clients msgs' = .ok s' ∧ s.1 = s'.1 := by
  refine ⟨fun msgs msgs' u keyed keyed' same => ?_, fun partitions msgs msgs' keyed onePart reads reads' => ?_⟩
  · obtain ⟨s, s', ran, ran', entry⟩ := lookup_configRun crates service clients keyed keyed' same
    refine ⟨s, s', ran, ran', entry, fun key event isTenant => ?_⟩
    subst isTenant
    exact handleNotification_congr crates service entry key
  · have keyedOf : ∀ {whole}, Interleaving partitions whole →
        ∀ msg ∈ whole, WellKeyed crates.protobuf msg := by
      intro whole reading msg member
      obtain ⟨part, isPart, inside⟩ := reading.exists_mem member
      exact keyed part isPart msg inside
    obtain ⟨s, ran, table⟩ := configRun_table crates service clients (keyedOf reads)
    obtain ⟨s', ran', table'⟩ := configRun_table crates service clients (keyedOf reads')
    refine ⟨s, s', ran, ran', Finmap.ext_lookup fun u => ?_⟩
    have same : msgs.filter (aboutTenant u) = msgs'.filter (aboutTenant u) := by
      rw [reads.filter_eq (onePart u), reads'.filter_eq (onePart u)]
    obtain ⟨t, t', first, second, entry⟩ :=
      lookup_configRun crates service clients (keyedOf reads) (keyedOf reads') same
    rw [ran, Except.ok.injEq] at first
    rw [ran', Except.ok.injEq] at second
    rw [first, second]
    exact entry

end TwoRuns

def tenantCrates : Crates :=
  sampleCrates (sampleProtobuf "application.Application" none none (some (sampleApplication "A")))

def configureA : BorrowedMessage := ⟨some (configKey "A"), some ⟨#[1]⟩⟩

/-- With a bar in it, the id of one tenant is cut down to that of another. -/
theorem barred_key_crosses :
    ∃ s s', configRun tenantCrates .fcm () [configureA, ⟨some (configKey "A|x"), none⟩] = .ok s ∧
      configRun tenantCrates .fcm () [configureA] = .ok s' ∧
      [configureA, ⟨some (configKey "A|x"), none⟩].filter (aboutTenant "A") =
        [configureA].filter (aboutTenant "A") ∧
      s.1.lookup "A" = none ∧ s'.1.lookup "A" = some "key" := by
  have brings : configCall tenantCrates.protobuf configureA = .ok (some ("A", some (sampleApplication "A"))) := by
    rw [configureA, configCall_configKey, namedTenant_of_not_mem (by decide)]
    rfl
  have cut : configCall tenantCrates.protobuf ⟨some (configKey "A|x"), none⟩ = .ok (some ("A", none)) := by
    have named : namedTenant "A|x" = "A" := by decide
    rw [configCall_configKey, named]
    rfl
  refine ⟨Fcm.FcmHandler.handleConfig "A" none
      (Fcm.FcmHandler.handleConfig "A" (some (sampleApplication "A")) (∅, World.init)),
    Fcm.FcmHandler.handleConfig "A" (some (sampleApplication "A")) (∅, World.init),
    ?_, ?_, by decide, by decide, by decide⟩
  · simp only [configRun, List.map_cons, List.map_nil, handleConfigs, processConfig, brings, cut]
    rfl
  · simp only [configRun, List.map_cons, List.map_nil, handleConfigs, processConfig, brings]
    rfl

end XorcNotifications
