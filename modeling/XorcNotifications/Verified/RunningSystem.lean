import XorcNotifications.Verified.Shutdown
import XorcNotifications.Verified.SystemShutdown
import XorcNotifications.Verified.TenantIsolation
import XorcNotifications.Verified.Outputs

/-!
# The running system

What the four threads do together, in any order of their steps: the request consumer lets
out what its messages plan, the configuration consumer makes the tenant table out of the
messages of its topic, and a thread whose loop is over has no more say in either.
-/

namespace XorcNotifications

open KeyedTables Machines RequestConsumer World

namespace System

/-! ## Threads whose loop is over -/

section Phases

variable {H : EventHandler} (pb : Protobuf)

namespace State

/-- One thread at most has moved, and not back into its loop. -/
def MovesOn (s s' : State H) : Prop :=
  ∃ thread next, s'.threads = Function.update s.threads thread next ∧
    (next.phase = .running → (s.threads thread).phase = .running)

theorem MovesOn.refl (s : State H) : s.MovesOn s :=
  ⟨.server, s.threads .server, (Function.update_eq_self ..).symm, id⟩

theorem movesOn_of_move {s s' : State H} {thread : Thread} {phase next : Phase} (ends : next ≠ .running)
    (stepped : s.move thread phase next = some s') : s.MovesOn s' := by
  obtain ⟨-, moved⟩ := Option.ite_none_right_eq_some.mp stepped
  cases moved
  exact ⟨thread, _, rfl, fun running => absurd running ends⟩

theorem movesOn_of_proceed {s s' : State H} (stepped : s.proceed = some s') : s.MovesOn s' := by
  cases turn : s.main with
  | sending thread =>
    simp only [proceed, turn] at stepped
    split at stepped
    · cases stepped
      exact ⟨thread, _, rfl, id⟩
    · cases stepped
      exact .refl s
  | joining thread =>
    simp only [proceed, turn] at stepped
    split at stepped <;> cases stepped <;> exact .refl s
  | unwinding =>
    simp only [proceed, turn, Option.some.injEq] at stepped
    rw [← stepped]
    exact .refl s
  | waiting => simp only [proceed, turn, reduceCtorEq] at stepped
  | returned => simp only [proceed, turn, reduceCtorEq] at stepped
  | unwound => simp only [proceed, turn, reduceCtorEq] at stepped
  | killed => simp only [proceed, turn, reduceCtorEq] at stepped

theorem movesOn_of_request {s s' : State H} {input : Input H} (stepped : s.request pb input = some s') :
    s.MovesOn s' := by
  obtain ⟨-, next⟩ := Option.ite_none_right_eq_some.mp stepped
  cases next
  split
  · exact ⟨.request, _, rfl, nofun⟩
  · exact .refl s

theorem movesOn_of_configure {s s' : State H} {clients : H.Clients} {msg : BorrowedMessage}
    (stepped : s.configure pb clients msg = some s') : s.MovesOn s' := by
  obtain ⟨-, next⟩ := Option.ite_none_right_eq_some.mp stepped
  split at next <;> cases next
  · exact .refl s
  · exact .refl s
  · exact ⟨.config, _, rfl, nofun⟩

theorem movesOn_of_commit {s s' : State H} {thread : Thread} {ok : Bool}
    (stepped : s.commit thread ok = some s') : s.MovesOn s' := by
  obtain ⟨-, committed⟩ := Option.ite_none_right_eq_some.mp stepped
  cases committed
  refine ⟨thread, _, rfl, fun running => ?_⟩
  cases ok <;> cases running

theorem movesOn_of_step {s s' : State H} {action : Action H} (stepped : step pb s action = some s') :
    s.MovesOn s' := by
  obtain ⟨-, stepped⟩ := Option.ite_none_left_eq_some.mp stepped
  cases action with
  | signal =>
    obtain ⟨-, next⟩ := Option.ite_none_right_eq_some.mp stepped
    cases next
    exact .refl s
  | main => exact movesOn_of_proceed stepped
  | item result => exact movesOn_of_request pb stepped
  | poll task event => exact movesOn_of_request pb stepped
  | configure clients msg => exact movesOn_of_configure pb stepped
  | panic thread => exact movesOn_of_move (by nofun) stepped
  | finish thread => exact movesOn_of_move (by nofun) stepped
  | stop thread =>
    obtain ⟨-, stepped⟩ := Option.ite_none_right_eq_some.mp stepped
    exact movesOn_of_move (by nofun) stepped
  | commit thread ok => exact movesOn_of_commit stepped
  | disconnect => exact movesOn_of_move (by nofun) stepped
  | kill =>
    cases stepped
    exact .refl s

theorem MovesOn.running {s s' : State H} (moves : s.MovesOn s') {thread : Thread}
    (running : (s'.threads thread).phase = .running) : (s.threads thread).phase = .running := by
  obtain ⟨moved, next, threads, kept⟩ := moves
  rw [threads] at running
  by_cases same : thread = moved
  · subst same
    rw [Function.update_self] at running
    exact kept running
  · rw [Function.update_of_ne same] at running
    exact running

/-! ### What a thread outside its loop leaves alone -/

/-- An input of the request consumer comes from the thread that is in the loop it belongs to. -/
theorem running_of_input {s s' : State H} {action : Action H} (stepped : step pb s action = some s')
    {input : Input H} (isInput : action.input pb = some input) :
    match input with
    | .config _ _ _ => (s.threads .config).phase = .running
    | _ => (s.threads .request).phase = .running := by
  obtain ⟨-, stepped⟩ := Option.ite_none_left_eq_some.mp stepped
  cases action with
  | item result =>
    cases isInput
    exact (Option.ite_none_right_eq_some.mp stepped).1
  | poll task event =>
    cases isInput
    exact (Option.ite_none_right_eq_some.mp stepped).1
  | configure clients msg =>
    have running := (Option.ite_none_right_eq_some.mp stepped).1
    simp only [Action.input] at isInput
    split at isInput <;> cases isInput
    exact running
  | _ => cases isInput

end State

end Phases

/-! ## The services as systems -/

section Services

variable (crates : Crates) (service : Service)

/-- The update of the tenant table that an action is: that of a message of the configuration
    topic. -/
def tenantUpdate : (service : Service) → Action (service.handler crates) →
    Update String (service.handler crates).Entry
  | .push service, .configure clients msg => messageUpdate crates service (clients, msg)
  | _, _ => .skip

/-- What has left the service so far, with the messages covered by the next commit. -/
def State.emitted {H : EventHandler} (s : State H) : Outlet H.Call × List BorrowedMessage :=
  (s.consumer.session.world.outlet, s.consumer.stored)

theorem emitted_of_config (consumer : RequestConsumer.State (service.handler crates))
    (clients : (service.handler crates).Clients) (id : String) (application : Option Application) :
    let next := consumer.step crates.protobuf (.config clients id application)
    next.session.world.outlet = consumer.session.world.outlet ∧ next.stored = consumer.stored :=
  let s := (consumer.session.tenants, consumer.session.world)
  ⟨outlet_of_unseen (service.calls_handleConfig crates clients id application s)
    (service.unseen_handleConfig crates clients id application s), rfl⟩

theorem tenantUpdate_eq (action : Action (service.handler crates)) :
    tenantUpdate crates service action =
      (action.input crates.protobuf).elim .skip (service.tenantUpdate crates) := by
  cases action with
  | configure clients msg =>
    cases service with
    | push service =>
      simp only [tenantUpdate, messageUpdate, Action.input]
      rcases configCall crates.protobuf msg with panic | _ | ⟨id, application⟩ <;> rfl
    | httpRequester =>
      simp only [tenantUpdate, Action.input]
      rcases configCall crates.protobuf msg with panic | _ | ⟨id, application⟩ <;> rfl
  | _ => cases service <;> rfl

theorem tenants_of_step {s s' : State (service.handler crates)} {action : Action (service.handler crates)}
    (stepped : State.step crates.protobuf s action = some s') :
    s'.consumer.session.tenants = s.consumer.session.tenants.apply (tenantUpdate crates service action) := by
  rw [(State.effect_of_step crates.protobuf stepped).consumer_eq, State.consumerAfter, tenantUpdate_eq]
  cases action.input crates.protobuf with
  | none => rfl
  | some input => exact service.table_nextTenants crates s.consumer input

/-- The tenants of a run are made of the messages of the configuration topic. -/
theorem tenants_of_run {actions : List (Action (service.handler crates))} {s : State (service.handler crates)}
    (ran : State.run crates.protobuf actions = some s) :
    s.consumer.session.tenants = Table.applyAll ∅ (actions.map (tenantUpdate crates service)) := by
  induction actions using List.reverseRecOn generalizing s with
  | nil =>
    cases ran
    rfl
  | append_singleton before action inductionHypothesis =>
    rw [State.run, Machine.run_concat] at ran
    obtain ⟨reached, ranBefore, stepped⟩ := Option.bind_eq_some_iff.mp ran
    rw [tenants_of_step crates service stepped, inductionHypothesis ranBefore, List.map_append,
      List.map_singleton, Table.applyAll_concat]

theorem emitted_of_step {s s' : State (service.handler crates)} {action : Action (service.handler crates)}
    (ended : (s.threads .request).phase ≠ .running)
    (stepped : State.step crates.protobuf s action = some s') : s'.emitted = s.emitted := by
  rw [State.emitted, (State.effect_of_step crates.protobuf stepped).consumer_eq, State.consumerAfter]
  cases isInput : action.input crates.protobuf with
  | none => rfl
  | some input =>
    have running := State.running_of_input crates.protobuf stepped isInput
    cases input with
    | config clients id application =>
      obtain ⟨outlet, stored⟩ := emitted_of_config crates service s.consumer clients id application
      exact Prod.ext outlet stored
    | item result => exact absurd running ended
    | poll task event => exact absurd running ended

theorem tenants_of_ended {s s' : State (service.handler crates)} {action : Action (service.handler crates)}
    (ended : (s.threads .config).phase ≠ .running)
    (stepped : State.step crates.protobuf s action = some s') :
    s'.consumer.session.tenants = s.consumer.session.tenants := by
  rw [(State.effect_of_step crates.protobuf stepped).consumer_eq, State.consumerAfter]
  cases isInput : action.input crates.protobuf with
  | none => rfl
  | some input =>
    have running := State.running_of_input crates.protobuf stepped isInput
    refine (service.table_nextTenants crates s.consumer input).trans ?_
    cases input with
    | config clients id application => exact absurd running ended
    | item result => cases service <;> rfl
    | poll task event => cases service <;> rfl

/-- Once the request consumer has left its loop, nothing is let out any more. -/
theorem emitted_of_run {s s' : State (service.handler crates)} {more : List (Action (service.handler crates))}
    (ran : (State.step crates.protobuf).run s more = some s')
    (ended : (s.threads .request).phase ≠ .running) :
    (s'.threads .request).phase ≠ .running ∧ s'.emitted = s.emitted := by
  have keeps : ∀ {t : State (service.handler crates)} {action t'},
      (t.threads .request).phase ≠ .running ∧ t.emitted = s.emitted →
        State.step crates.protobuf t action = some t' →
          (t'.threads .request).phase ≠ .running ∧ t'.emitted = s.emitted := by
    intro t action t' holds stepped
    refine ⟨fun running => ?_, (emitted_of_step crates service holds.1 stepped).trans holds.2⟩
    exact holds.1 ((State.movesOn_of_step crates.protobuf stepped).running running)
  exact Machine.holds_of_every_run keeps ⟨ended, rfl⟩ ran

theorem tenants_of_run_ended {s s' : State (service.handler crates)}
    {more : List (Action (service.handler crates))}
    (ran : (State.step crates.protobuf).run s more = some s')
    (ended : (s.threads .config).phase ≠ .running) :
    (s'.threads .config).phase ≠ .running ∧ s'.consumer.session.tenants = s.consumer.session.tenants := by
  have keeps : ∀ {t : State (service.handler crates)} {action t'},
      (t.threads .config).phase ≠ .running ∧ t.consumer.session.tenants = s.consumer.session.tenants →
        State.step crates.protobuf t action = some t' →
          (t'.threads .config).phase ≠ .running ∧
            t'.consumer.session.tenants = s.consumer.session.tenants := by
    intro t action t' holds stepped
    refine ⟨fun running => ?_, (tenants_of_ended crates service holds.1 stepped).trans holds.2⟩
    exact holds.1 ((State.movesOn_of_step crates.protobuf stepped).running running)
  exact Machine.holds_of_every_run keeps ⟨ended, rfl⟩ ran

end Services

/-- What a run of the system has let out is what its messages plan, and its tenants are what the
    messages of the configuration topic have made of them.  A request consumer that is not in
    its loop any more lets nothing out, and a configuration consumer that is not in its loop
    any more leaves the tenants alone, whatever the other threads still do. -/
theorem system_outputs (crates : Crates) (service : Service)
    (actions : List (Action (service.handler crates))) (s : State (service.handler crates))
    (ran : State.run crates.protobuf actions = some s) :
    let outputs := service.outputs crates (service.alive crates (actions.filterMap (Action.input crates.protobuf)))
    let w := s.consumer.session.world
    (w.calls = outputs.filterMap Output.asked ∧ w.published = outputs.filterMap Output.record) ∧
      s.consumer.session.tenants = Table.applyAll ∅ (actions.map (tenantUpdate crates service)) ∧
      ∀ more s', (State.step crates.protobuf).run s more = some s' →
        ((s.threads .request).phase ≠ .running → s'.emitted = s.emitted) ∧
          ((s.threads .config).phase ≠ .running → s'.consumer.session.tenants = s.consumer.session.tenants) := by
  intro outputs w
  have consumer := State.consumer_of_run crates.protobuf ran
  refine ⟨⟨?_, ?_⟩, tenants_of_run crates service ran, fun more s' ranMore =>
    ⟨fun ended => (emitted_of_run crates service ranMore ended).2,
      fun ended => (tenants_of_run_ended crates service ranMore ended).2⟩⟩
  · rw [show w = _ from congrArg (·.session.world) consumer]
    exact service.calls_eq crates _
  · rw [show w = _ from congrArg (·.session.world) consumer]
    exact service.published_eq crates _

/-- A notification of an unknown tenant is answered, and then the stream of requests ends. -/
theorem ended_request_consumer :
    ∃ s : State (Service.handler pushCrates (.push .fcm)),
      State.run pushCrates.protobuf [.item (.ok pushMessage), .finish .request] = some s ∧
      s.consumer.session.world.published = [⟨"responses", none, .pushResult (.into samplePush .retry)⟩] ∧
      ∀ more s', (State.step pushCrates.protobuf).run s more = some s' → s'.emitted = s.emitted :=
  ⟨_, rfl, rfl, fun more s' ran =>
    ((system_outputs pushCrates (.push .fcm) [.item (.ok pushMessage), .finish .request] _ rfl).2.2 more s' ran).1
      nofun⟩

end System

end XorcNotifications
