import XorcNotifications.Services

/-!
# The results of one FCM call

A notification is sent to as many recipients as it has registration ids, and FCM answers
with one result for each.  `handle_response` looks at the first result only, so what it
reports is right for the whole list exactly when the first result decides the list.
-/

namespace XorcNotifications.Fcm

open FcmProducer

/-- The list of registration ids is passed on as it is, however long. -/
theorem registrationIds_genPayload (crates : Crates) (pn : PushNotification) (apiKey : String) :
    (Notifier.genPayload crates pn apiKey).1.registrationIds.getD [] = pn.getGoogle.registrationIds := by
  have setData_ids : ∀ (message : Message) (data : StringMap),
      (Notifier.setData crates message data).1.registrationIds = message.registrationIds := by
    intro message data
    rw [Notifier.setData]
    cases crates.encodeError data <;> rfl
  simp only [Notifier.genPayload]
  cases ids : pn.getGoogle.registrationIds with
  | nil => cases pn.getGoogle.localized <;> simp [setData_ids, Message.new]
  | cons id ids => cases pn.getGoogle.localized <;> simp

section Response

variable (topic : String) (key : Option Bytes) (event : PushNotification)

/-- What an answer does that is taken for a success. -/
structure NoErrorPath (w w' : World) : Prop where
  counted : w'.metrics.callbacksCounter = w.metrics.callbacksCounter
  logged : w'.logs = w.logs
  published : w'.published = w.published ++ [⟨topic, key, .pushResult (.into event .none)⟩]

variable {topic key event}

theorem noErrorPath_of_no_error {response : FcmResponse} (first : firstError response = none)
    (w : World) : NoErrorPath topic key event w (handleResponse topic key event response w) := by
  rw [handleResponse, first]
  exact ⟨rfl, rfl, rfl⟩

/-- An error of the first result leaves a record, so it is never taken for a success. -/
theorem logs_handleResponse {response : FcmResponse} {reason : ErrorReason}
    (first : firstError response = some reason) (w : World) :
    (handleResponse topic key event response w).logs =
      w.logs ++ [⟨.error, "Error sending a push notification", event.serialize ++
        [("successful", .bool false), ("reason", .str reason.debug)]⟩] := by
  rw [handleResponse, first]
  cases reason <;> rfl

theorem noErrorPath_iff {response : FcmResponse} {w : World} :
    NoErrorPath topic key event w (handleResponse topic key event response w) ↔
      firstError response = none := by
  refine ⟨fun taken => ?_, fun first => noErrorPath_of_no_error first w⟩
  cases first : firstError response with
  | none => rfl
  | some reason =>
    have same := taken.logged
    rw [logs_handleResponse first, List.append_right_eq_self] at same
    cases same

theorem published_handleResponse (response : FcmResponse) (w : World) :
    (handleResponse topic key event response w).published =
      w.published ++ [⟨topic, key, .pushResult (.into event
        (if firstError response = some .notRegistered then .unsubscribeEntity else .none))⟩] := by
  rw [handleResponse]
  cases first : firstError response with
  | none => rfl
  | some reason => cases reason <;> rfl

theorem published_unsubscribe_iff {response : FcmResponse} {w : World} :
    (handleResponse topic key event response w).published =
        w.published ++ [⟨topic, key, .pushResult (.into event .unsubscribeEntity)⟩] ↔
      firstError response = some .notRegistered := by
  rw [published_handleResponse, List.append_cancel_left_eq]
  by_cases gone : firstError response = some .notRegistered
  · simp [gone]
  · simp [gone, PushResult.into]

variable (topic key event)

/-- No failed recipient passes as a success, and one that is gone is unsubscribed. -/
def ReportsFailures (response : FcmResponse) (w : World) : Prop :=
  (NoErrorPath topic key event w (handleResponse topic key event response w) →
    ∀ entry ∈ response.results.getD [], entry.error = none) ∧
  ((∃ entry ∈ response.results.getD [], entry.error = some .notRegistered) →
    (handleResponse topic key event response w).published =
      w.published ++ [⟨topic, key, .pushResult (.into event .unsubscribeEntity)⟩])

end Response

/-- The first entry says what the whole list has to say. -/
def DecidedByFirst : List MessageResult → Prop
  | [] => True
  | first :: rest =>
    match first.error with
    | some .notRegistered => True
    | some (.other _) => ∀ entry ∈ rest, entry.error ≠ some .notRegistered
    | none => ∀ entry ∈ rest, entry.error = none

theorem firstError_eq_head (response : FcmResponse) :
    firstError response = (response.results.getD []).head?.bind (·.error) := by
  rw [firstError]
  cases response.results <;> rfl

theorem decidedByFirst_iff (results : List MessageResult) :
    DecidedByFirst results ↔
      (results.head?.bind (·.error) = none → ∀ entry ∈ results, entry.error = none) ∧
      ((∃ entry ∈ results, entry.error = some .notRegistered) →
        results.head?.bind (·.error) = some .notRegistered) := by
  cases results with
  | nil => simp [DecidedByFirst]
  | cons first rest =>
    obtain ⟨error⟩ := first
    rw [DecidedByFirst, List.head?_cons, Option.bind_some]
    cases error with
    | none =>
      simp only [List.mem_cons, forall_eq_or_imp, exists_eq_or_imp, true_and, forall_const, reduceCtorEq,
        false_or, imp_false, not_exists, not_and]
      refine ⟨fun clean => ⟨clean, fun entry member gone => ?_⟩, And.left⟩
      rw [clean entry member] at gone
      cases gone
    | some reason =>
      cases reason with
      | notRegistered => simp
      | other name => simp

/-- The registration ids of a notification all reach FCM; an answer with a result for each
    is reported faithfully exactly if the first result decides the list. -/
theorem failures_reported_iff (crates : Crates) (apiKey topic : String) (key : Option Bytes)
    (event : PushNotification) (response : FcmResponse) (w : World) :
    (Notifier.genPayload crates event apiKey).1.registrationIds.getD [] =
        event.getGoogle.registrationIds ∧
    (ReportsFailures topic key event response w ↔ DecidedByFirst (response.results.getD [])) := by
  refine ⟨registrationIds_genPayload crates event apiKey, ?_⟩
  rw [ReportsFailures, noErrorPath_iff, published_unsubscribe_iff, firstError_eq_head,
    decidedByFirst_iff]

/-- Two recipients, of which the second one is gone. -/
theorem second_recipient_unreported :
    ¬ ReportsFailures "responses" none
        { samplePush with google := some { GoogleNotification.new with registrationIds := ["a", "b"] } }
        ⟨some [⟨none⟩, ⟨some .notRegistered⟩]⟩ World.init := by
  intro reported
  obtain ⟨success, _⟩ := reported
  have gone := success ⟨rfl, rfl, rfl⟩ ⟨some .notRegistered⟩ (List.mem_cons_of_mem _ List.mem_cons_self)
  cases gone

end XorcNotifications.Fcm
