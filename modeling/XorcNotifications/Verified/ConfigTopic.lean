import XorcNotifications.Verified.TenantTables

/-!
# The configuration topic

What the closure of the configuration loop makes of a message: when it panics, which
tenant it takes from the key, and what it takes for a null configuration.
-/

namespace XorcNotifications

open KeyedTables RequestConsumer

/-! ## Keys -/

def configKey (k : String) : Bytes := ("application|" ++ k).toUTF8

/-- The tenant that the key of `k` names: what comes before the first bar of `k`. -/
def namedTenant (k : String) : String := String.ofList ((k.toList.splitOn '|').headD [])

theorem namedTenant_of_not_mem {k : String} (bare : '|' ∉ k.toList) : namedTenant k = k := by
  rw [namedTenant, List.splitOn_eq_singleton bare]
  exact String.ofList_toList

theorem toList_configKey (k : String) :
    ("application|" ++ k).toList = "application".toList ++ '|' :: k.toList := by
  rw [String.toList_append]
  rfl

theorem isMatch_appKeyRe (before after : List Char) :
    TextSearch.isMatch appKeyRe (before ++ "application".toList ++ after) = true :=
  TextSearch.isMatch_literal_add "application".toList before after upperUuid

section Calls

variable (pb : Protobuf)

/-- Whether a key that is taken for that of an application has a second segment. -/
def SegmentedKey (msg : BorrowedMessage) : Prop :=
  ∀ key, msg.key.bind String.fromUTF8? = some key → TextSearch.isMatch appKeyRe key.toList = true →
    '|' ∈ key.toList

theorem configCall_ok_iff (msg : BorrowedMessage) :
    (∃ call, configCall pb msg = .ok call) ↔ SegmentedKey msg := by
  rw [configCall, SegmentedKey]
  cases decoded : msg.key.bind String.fromUTF8? with
  | none => exact iff_of_true ⟨_, rfl⟩ (fun key impossible => nomatch impossible)
  | some key =>
    by_cases matched : TextSearch.isMatch appKeyRe key.toList = true
    · simp only [matched, if_true, Option.some.injEq, forall_eq', forall_const]
      -- The index is in bounds exactly if there is a bar to split at.
      cases segment : (key.toList.splitOn '|')[1]? with
      | none =>
        have absent := TextSearch.splitOn_second_eq_none_iff.mp segment
        refine iff_of_false ?_ absent
        intro passes
        obtain ⟨call, stopped⟩ := passes
        cases stopped
      | some segment' =>
        have present : '|' ∈ key.toList := by
          by_contra absent
          rw [TextSearch.splitOn_second_eq_none_iff.mpr absent] at segment
          cases segment
        refine iff_of_true ?_ present
        cases msg.payload.bind pb.parseRequestWrapper with
        | none => exact ⟨_, rfl⟩
        | some decoder =>
          by_cases typed : decoder.getHeader.getFieldType = "application.Application"
          · exact ⟨_, if_pos typed⟩
          · exact ⟨_, if_neg typed⟩
    · simp only [matched, Bool.false_eq_true, if_false]
      refine iff_of_true ⟨_, rfl⟩ ?_
      intro key' same matched'
      cases same
      exact absurd matched' matched

theorem configCall_configKey (k : String) (payload : Option Bytes) :
    configCall pb ⟨some (configKey k), payload⟩ =
      match payload.bind pb.parseRequestWrapper with
      | some decoder =>
        if decoder.getHeader.getFieldType = "application.Application" then
          .ok (some (namedTenant k, payload.bind pb.parseApplication))
        else .ok none
      | none => .ok (some (namedTenant k, none)) := by
  have decoded : (some (configKey k)).bind String.fromUTF8? = some ("application|" ++ k) := by
    rw [Option.bind_some, configKey, TextSearch.fromUTF8?_toUTF8]
  have matched : TextSearch.isMatch appKeyRe ("application|" ++ k).toList = true := by
    rw [toList_configKey]
    exact isMatch_appKeyRe [] _
  have segment : (("application|" ++ k).toList.splitOn '|')[1]? = some ((k.toList.splitOn '|').headD []) := by
    rw [toList_configKey, TextSearch.splitOn_second (by decide)]
    -- The segment after the word is the first one of `k`.
    cases split : k.toList.splitOn '|' with
    | nil => exact absurd split (List.splitOn_ne_nil '|' k.toList)
    | cons head tail => rfl
  simp only [configCall, decoded, matched, if_true, segment]
  rfl

end Calls

/-! ## Poison messages -/

section Runs

variable (pb : Protobuf) {H : EventHandler}

/-- The call of `EventHandler::handle_config` that a message makes, if it makes one. -/
def madeCall (input : H.Clients × BorrowedMessage) : Option (ConfigCall H.Clients) :=
  match configCall pb input.2 with
  | .ok (some (id, application)) => some ⟨input.1, id, application⟩
  | _ => none

/-- Every message is passed without a panic, and every call that one of them makes has
    reached the handler, in order. -/
def AllProcessed (s : ConfigState H) (inputs : List (H.Clients × BorrowedMessage)) : Prop :=
  (∀ input ∈ inputs, ∃ call, configCall pb input.2 = .ok call) ∧
    handleConfigs pb s inputs = .ok ((inputs.filterMap (madeCall pb)).foldl
      (fun s call => H.handleConfig call.clients call.id call.application s) s)

theorem handleConfigs_of_ok (s : ConfigState H) (inputs : List (H.Clients × BorrowedMessage))
    (passes : ∀ input ∈ inputs, ∃ call, configCall pb input.2 = .ok call) :
    handleConfigs pb s inputs = .ok ((inputs.filterMap (madeCall pb)).foldl
      (fun s call => H.handleConfig call.clients call.id call.application s) s) := by
  induction inputs generalizing s with
  | nil => rfl
  | cons input inputs inductionHypothesis =>
    have rest := fun next => inductionHypothesis next fun other member =>
      passes other (List.mem_cons_of_mem input member)
    obtain ⟨call, made⟩ := passes input List.mem_cons_self
    cases call with
    | none => simp only [handleConfigs, processConfig, made, List.filterMap_cons, madeCall, rest]
    | some call =>
      obtain ⟨id, application⟩ := call
      simp only [handleConfigs, processConfig, made, List.filterMap_cons, madeCall, rest,
        List.foldl_cons]

/-- No message stops the configuration loop exactly if every key it takes for that of an
    application has a second segment. -/
theorem configs_processed_iff (s : ConfigState H) (inputs : List (H.Clients × BorrowedMessage)) :
    AllProcessed pb s inputs ↔ ∀ input ∈ inputs, SegmentedKey input.2 := by
  constructor
  · intro processed input member
    obtain ⟨passes, _⟩ := processed
    exact (configCall_ok_iff pb input.2).mp (passes input member)
  · intro segmented
    have passes : ∀ input ∈ inputs, ∃ call, configCall pb input.2 = .ok call :=
      fun input member => (configCall_ok_iff pb input.2).mpr (segmented input member)
    exact ⟨passes, handleConfigs_of_ok pb s inputs passes⟩

end Runs

def bareKey : BorrowedMessage := ⟨some "application".toUTF8, none⟩

def configPb : Protobuf := sampleProtobuf "application.Application" none none (some (sampleApplication "A"))

/-- It stops the loop, and the configuration after it is not processed. -/
theorem bareKey_stops :
    handleConfigs configPb (ConfigState.start (Fcm.fcmHandler ⟨fun _ => none⟩ "responses"))
        [((), bareKey), ((), ⟨some (configKey "A"), some ⟨#[1]⟩⟩)] = .error .indexOutOfBounds ∧
      configCall configPb ⟨some (configKey "A"), some ⟨#[1]⟩⟩ =
        .ok (some ("A", some (sampleApplication "A"))) := by
  have panics : configCall configPb bareKey = .error .indexOutOfBounds := by
    have matched : TextSearch.isMatch appKeyRe "application".toList = true := isMatch_appKeyRe [] []
    have decoded : bareKey.key.bind String.fromUTF8? = some "application" :=
      TextSearch.fromUTF8?_toUTF8 "application"
    have segment : ("application".toList.splitOn '|')[1]? = none :=
      TextSearch.splitOn_second_eq_none_iff.mpr (by decide)
    simp only [configCall, decoded, matched, if_true, segment]
  constructor
  · simp only [handleConfigs, processConfig, panics]
  · rw [configCall_configKey, namedTenant_of_not_mem (by decide)]
    rfl

/-! ## Null configurations -/

section NullConfigs

variable (crates : Crates) (service : PushService)

/-- A payload that is there and does not decode, as a wrapper or as an application. -/
def Undecodable (pb : Protobuf) (payload : Option Bytes) : Prop :=
  ∃ bytes, payload = some bytes ∧
    (pb.parseRequestWrapper bytes = none ∨
      ∃ decoder, pb.parseRequestWrapper bytes = some decoder ∧
        decoder.getHeader.getFieldType = "application.Application" ∧ pb.parseApplication bytes = none)

/-- A message leads to the deletion of a tenant without an application in hand exactly if
    its payload is absent or undecodable. -/
theorem configCall_null_iff (pb : Protobuf) (k : String) (payload : Option Bytes) :
    configCall pb ⟨some (configKey k), payload⟩ = .ok (some (namedTenant k, none)) ↔
      payload = none ∨ Undecodable pb payload := by
  rw [configCall_configKey]
  cases payload with
  | none => exact iff_of_true rfl (.inl rfl)
  | some bytes =>
    cases wrapper : pb.parseRequestWrapper bytes with
    | none => simp [Undecodable, wrapper]
    | some decoder =>
      by_cases typed : decoder.getHeader.getFieldType = "application.Application" <;>
        simp [Undecodable, wrapper, typed]

/-- What the message leaves of the tenants: the table and the gauge of applications. -/
def KeepsTenants (s s' : ConfigState (service.handler crates)) : Prop :=
  s'.1 = s.1 ∧ s'.2.metrics.numberOfApplications = s.2.metrics.numberOfApplications

/-- No message with the key of `k` loses a tenant by mistake: an undecodable payload leaves
    the tenants as they were, and a deletion without an application means no payload. -/
def NeverRemovesByMistake (s : ConfigState (service.handler crates))
    (clients : (service.handler crates).Clients) (k : String) (payload : Option Bytes) : Prop :=
  (Undecodable crates.protobuf payload → ∃ s', processConfig crates.protobuf s
      (clients, ⟨some (configKey k), payload⟩) = .ok s' ∧ KeepsTenants crates service s s') ∧
    (configCall crates.protobuf ⟨some (configKey k), payload⟩ = .ok (some (namedTenant k, none)) →
      payload = none)

/-- An undecodable payload is taken for a null configuration: it removes the tenant that the
    key names, if there is one. -/
theorem processConfig_of_undecodable (s : ConfigState (service.handler crates))
    (clients : (service.handler crates).Clients) (k : String) {payload : Option Bytes}
    (undecodable : Undecodable crates.protobuf payload) :
    ∃ s', processConfig crates.protobuf s (clients, ⟨some (configKey k), payload⟩) = .ok s' ∧
      s'.1 = s.1.apply (.drop (namedTenant k)) ∧
      (KeepsTenants crates service s s' ↔ s.1.lookup (namedTenant k) = none) := by
  have null := (configCall_null_iff crates.protobuf k payload).mpr (.inr undecodable)
  have table : ((service.handler crates).handleConfig clients (namedTenant k) none s).1 =
      s.1.apply (.drop (namedTenant k)) := by
    rw [service.handleConfig_table, service.configUpdate_none]
  refine ⟨(service.handler crates).handleConfig clients (namedTenant k) none s, ?_, table, ?_⟩
  · simp only [processConfig, null]
  · constructor
    · intro kept
      obtain ⟨same, _⟩ := kept
      exact Table.apply_drop_eq_self_iff.mp (table.symm.trans same)
    · intro absent
      rw [service.handleConfig_none_of_absent crates clients (namedTenant k) absent]
      exact ⟨rfl, rfl⟩

theorem neverRemovesByMistake_iff (s : ConfigState (service.handler crates))
    (clients : (service.handler crates).Clients) (k : String) (payload : Option Bytes) :
    NeverRemovesByMistake crates service s clients k payload ↔
      ¬ Undecodable crates.protobuf payload := by
  have null := configCall_null_iff crates.protobuf k payload
  constructor
  · intro never undecodable
    obtain ⟨_, absent⟩ := never
    -- The second half already fails: the deletion is reached with a payload.
    obtain ⟨bytes, present, _⟩ := id undecodable
    rw [absent (null.mpr (.inr undecodable))] at present
    cases present
  · intro decodes
    refine ⟨fun undecodable => absurd undecodable decodes, fun deletes => ?_⟩
    exact (null.mp deletes).resolve_right decodes

/-- In the run the message with the key of `k` and the payload is processed in state `s`. -/
def Meets (inputs : List ((service.handler crates).Clients × BorrowedMessage))
    (s : ConfigState (service.handler crates)) (clients : (service.handler crates).Clients)
    (k : String) (payload : Option Bytes) : Prop :=
  ∃ n : Nat, handleConfigs crates.protobuf (ConfigState.start _) (inputs.take n) = .ok s ∧
    inputs[n]? = some (clients, ⟨some (configKey k), payload⟩)

/-- A run never removes a tenant by mistake exactly if it meets no undecodable payload.  One
    that it meets is harmless to the tenants exactly if the tenant it names is unknown. -/
theorem undecodable_removes_iff (inputs : List ((service.handler crates).Clients × BorrowedMessage)) :
    ((∀ s clients k payload, Meets crates service inputs s clients k payload →
        NeverRemovesByMistake crates service s clients k payload) ↔
      ∀ s clients k payload, Meets crates service inputs s clients k payload →
        ¬ Undecodable crates.protobuf payload) ∧
    ∀ s clients k payload, Meets crates service inputs s clients k payload →
      Undecodable crates.protobuf payload →
      ∃ s', processConfig crates.protobuf s (clients, ⟨some (configKey k), payload⟩) = .ok s' ∧
        s'.1 = s.1.apply (.drop (namedTenant k)) ∧
        (KeepsTenants crates service s s' ↔ s.1.lookup (namedTenant k) = none) := by
  refine ⟨?_, fun s clients k payload _ => processConfig_of_undecodable crates service s clients k⟩
  refine forall₄_congr fun s clients k payload => imp_congr_right fun _ => ?_
  exact neverRemovesByMistake_iff crates service s clients k payload

end NullConfigs

/-- Only the payload `1` decodes. -/
def strictPb : Protobuf :=
  { configPb with
    parseRequestWrapper := fun bytes =>
      if bytes = ⟨#[1]⟩ then configPb.parseRequestWrapper bytes else none }

/-- A payload that does not decode removes a tenant that was there. -/
theorem garbage_removes_tenant :
    ∃ s s', handleConfigs strictPb (ConfigState.start ((PushService.fcm).handler (sampleCrates strictPb)))
        [((), ⟨some (configKey "A"), some ⟨#[1]⟩⟩)] = .ok s ∧
      processConfig strictPb s ((), ⟨some (configKey "A"), some ⟨#[2]⟩⟩) = .ok s' ∧
      s.1.lookup "A" = some "key" ∧ s'.1.lookup "A" = none ∧
      s.2.metrics.numberOfApplications = 1 ∧ s'.2.metrics.numberOfApplications = 0 := by
  have configured : configCall strictPb ⟨some (configKey "A"), some ⟨#[1]⟩⟩ =
      .ok (some ("A", some (sampleApplication "A"))) := by
    rw [configCall_configKey, namedTenant_of_not_mem (by decide)]
    rfl
  have garbage : configCall strictPb ⟨some (configKey "A"), some ⟨#[2]⟩⟩ = .ok (some ("A", none)) := by
    rw [configCall_configKey, namedTenant_of_not_mem (by decide)]
    rfl
  refine ⟨Fcm.FcmHandler.handleConfig "A" (some (sampleApplication "A")) (∅, World.init),
    Fcm.FcmHandler.handleConfig "A" none
      (Fcm.FcmHandler.handleConfig "A" (some (sampleApplication "A")) (∅, World.init)),
    ?_, ?_, by decide, by decide, by decide, by decide⟩
  · simp only [handleConfigs, processConfig, configured]
    rfl
  · simp only [processConfig, garbage]

end XorcNotifications
