import Mathlib.Algebra.Order.BigOperators.Group.Finset
import Mathlib.Data.Multiset.OrderedMonoid
import XorcNotifications.Lib.Offsets
import XorcNotifications.Verified.Processes

/-!
# Processes that come and go

A group outlives its processes.  They are started, stopped and killed, and the broker hands the
partitions of the input topic over from one to another; what has been read is known from the
committed offsets alone.  The loop commits what it has read when it is told to stop, and the client
library commits from time to time, so that the answers of all processes together can be told from
where the turns at each partition begin and end.  A process that panics is left out: its answers
are those of the messages before the fatal one.
-/

namespace XorcNotifications

open ConsumerGroups Offsets RequestConsumer World

namespace StreamConsumer

theorem monotone_place (consumer : StreamConsumer) : Monotone consumer.place := by
  intro length length' grown
  rw [place, place]
  split
  · exact Nat.le_refl 0
  · exact grown

end StreamConsumer

/-- How the partitions have gone round in a group of processes, all with the same consumer. -/
structure GroupHistory (ι : Type) {P : Type} (consumer : StreamConsumer)
    (partitions : P → List BorrowedMessage) where
  turns : P → List (Turn ι)
  committed : P → Option Nat
  final : P → Option Nat
  length : P → Nat
  rounds : ∀ p, Turns consumer.place (committed p) (length p) (turns p) (final p) (partitions p).length

namespace GroupHistory

variable {ι P : Type} {consumer : StreamConsumer} {partitions : P → List BorrowedMessage}
  (group : GroupHistory ι consumer partitions)

/-- Where a turn at the partition would begin now. -/
def last (p : P) : Nat := (group.final p).getD (consumer.place (partitions p).length)

/-- The group had committed an offset for each partition before the first turn. -/
def Known : Prop := ∀ p, group.committed p ≠ none

/-- Every turn commits what it has read. -/
def Commits : Prop := ∀ p, ∀ turn ∈ group.turns p, turn.commits = true

variable [Fintype P]

/-- The messages from where the first turns begin up to where turns would begin now. -/
def passed : Multiset BorrowedMessage :=
  ∑ p, between (partitions p) (beginning (group.last p) (group.turns p)) (group.last p)

def again : Multiset BorrowedMessage := ∑ p, Offsets.again (partitions p) (group.last p) (group.turns p)

def skipped : Multiset BorrowedMessage := ∑ p, Offsets.skipped (partitions p) (group.last p) (group.turns p)

theorem sum_takenBy_add_skipped [Fintype ι] [DecidableEq ι] :
    ∑ i, takenBy partitions group.turns i + group.skipped = group.passed + group.again := by
  rw [sum_takenBy, skipped, passed, again, ← Finset.sum_add_distrib, ← Finset.sum_add_distrib]
  exact Finset.sum_congr rfl fun p _ =>
    covered_add_skipped (partitions p) ((group.rounds p).ascending consumer.monotone_place)

variable {group}

theorem Commits.again_eq_zero (commits : group.Commits) : group.again = 0 :=
  Finset.sum_eq_zero fun p _ =>
    (group.rounds p).again_eq_zero consumer.monotone_place (commits p) (partitions p)

theorem Known.skipped_eq_zero (known : group.Known) : group.skipped = 0 :=
  Finset.sum_eq_zero fun p _ => (group.rounds p).skipped_eq_zero (known p) (partitions p)

end GroupHistory

namespace Service

variable {crates : Crates} {service : Service} {inputs : List (Input (service.handler crates))}

theorem outstanding_eq_zero_iff
    (running : (handleRequests crates.protobuf (service.handler crates) inputs).session.executor.halted = false) :
    service.outstanding crates inputs = 0 ↔
      (handleRequests crates.protobuf (service.handler crates) inputs).session.executor.tasks = [] := by
  rw [outstanding, Multiset.coe_eq_zero, List.filterMap_eq_nil_iff, List.eq_nil_iff_forall_not_mem]
  refine forall_congr' fun task => ⟨fun nothing member => ?_, fun absent member => absurd member absent⟩
  -- Every task owes an answer.
  obtain ⟨msg, receipt, atId, owes, -⟩ := service.exists_owed_of_mem_tasks crates running member
  have owed := nothing member
  rw [atId, Option.bind_some, owedInput, owes] at owed
  cases owed

theorem stop_drops_nothing_iff
    (running : (handleRequests crates.protobuf (service.handler crates) inputs).session.executor.halted = false) :
    (∃ stopped, (handleRequests crates.protobuf (service.handler crates) inputs).stop true = some stopped ∧
      stopped.dropped = []) ↔ service.outstanding crates inputs = 0 := by
  rw [outstanding_eq_zero_iff running]
  constructor
  · intro ⟨stopped, returned, nothing⟩
    obtain ⟨-, -, rfl⟩ := (stop_eq_some_iff _ _ _).mp returned
    exact nothing
  · intro nothing
    exact ⟨_, (stop_eq_some_iff _ true _).mpr ⟨running, rfl, rfl⟩, nothing⟩

end Service

/-- The answers of all processes that a group has had, none of which has panicked, published or
    owed when they ended, and those to the messages that nobody has read, are one for each message
    that the group has got past and one for each message that has been read again.  If offsets
    were committed from the start and every turn commits what it has read, then no message is
    skipped or read again, and all of them are answered exactly if no process drops a task as it
    stops. -/
theorem group_answers_across_restarts (crates : Crates) (service : Service) (config : Kafka.Config) {ι P : Type}
    [Fintype ι] [DecidableEq ι] [Fintype P] {partitions : P → List BorrowedMessage}
    (group : GroupHistory ι (requestConsumer config) partitions) {inputs : ι → List (Input (service.handler crates))}
    (taken : ∀ i, (consumed (inputs i) : Multiset BorrowedMessage) = takenBy partitions group.turns i)
    (running : ∀ i, (handleRequests crates.protobuf (service.handler crates)
      (inputs i)).session.executor.halted = false) :
    ∑ i, service.accountedFor crates (inputs i) + answers (service.answer crates) group.skipped =
        answers (service.answer crates) group.passed + answers (service.answer crates) group.again ∧
      (group.Known → group.Commits → group.skipped = 0 ∧ group.again = 0 ∧
        (∑ i, (handleRequests crates.protobuf (service.handler crates) (inputs i)).session.world.receipts =
            answers (service.answer crates) group.passed ↔
          ∀ i, ∃ stopped, (handleRequests crates.protobuf (service.handler crates) (inputs i)).stop true =
            some stopped ∧ stopped.dropped = [])) := by
  have each : ∀ i, service.accountedFor crates (inputs i) =
      answers (service.answer crates) (takenBy partitions group.turns i) := by
    intro i
    rw [← taken i]
    exact Service.accountedFor_of_running (running i)
  have account : ∑ i, service.accountedFor crates (inputs i) + answers (service.answer crates) group.skipped =
      answers (service.answer crates) group.passed + answers (service.answer crates) group.again := by
    rw [← map_add, ← group.sum_takenBy_add_skipped, map_add, map_sum]
    exact congrArg (· + _) (Finset.sum_congr rfl fun i _ => each i)
  refine ⟨account, fun known commits => ⟨known.skipped_eq_zero, commits.again_eq_zero, ?_⟩⟩
  rw [known.skipped_eq_zero, commits.again_eq_zero, map_zero, add_zero, add_zero] at account
  simp only [Service.stop_drops_nothing_iff (running _), ← account, Service.accountedFor,
    Finset.sum_add_distrib, left_eq_add, Finset.sum_eq_zero_iff, Finset.mem_univ, forall_true_left]

/-- Two processes of fcm, `true` after `false`.  Each is given one of two notifications, and FCM answers
    the second process only. -/
def restartedInputs : Bool → List (Input (Service.handler pushCrates (.push .fcm)))
  | false => sentPush
  | true => answeredPush

/-- Both processes commit what they have read. -/
def restartedTurns : List (Turn Bool) :=
  [⟨false, 0, 1, Nat.zero_le 1, true⟩, ⟨true, 1, 2, Nat.le_succ 1, true⟩]

theorem rounds_restartedTurns (place : Nat → Nat) : Turns place (some 0) 1 restartedTurns (some 2) 2 := by
  refine .next (Nat.le_refl 1) rfl (Turn.leaves_reached rfl Nat.zero_lt_one (some 0)) ?_
  refine .next (Nat.le_refl 1) rfl (Turn.leaves_reached rfl Nat.one_lt_two (some 1)) ?_
  exact .nobody (Nat.le_refl 2)

def restartedGroup : GroupHistory Bool (requestConsumer (Service.chartConfig "staging" "kafka:9092" (.push .fcm)))
    fun _ : Unit => [pushMessage, pushMessage] where
  turns _ := restartedTurns
  committed _ := some 0
  final _ := some 2
  length _ := 1
  rounds _ := rounds_restartedTurns _

/-- The answer that the first process did not wait for is lost. -/
theorem restartedGroup_loses_answer :
    ∑ i, (handleRequests pushCrates.protobuf (Service.handler pushCrates (.push .fcm))
        (restartedInputs i)).session.world.receipts ≠
      answers (Service.answer pushCrates (.push .fcm)) restartedGroup.passed := by
  have taken : ∀ i, (consumed (restartedInputs i) : Multiset BorrowedMessage) =
      takenBy (fun _ : Unit => [pushMessage, pushMessage]) restartedGroup.turns i := by
    intro i
    cases i <;> rfl
  have known : restartedGroup.Known := fun _ unknown => nomatch unknown
  have commits : restartedGroup.Commits := by
    intro p turn member
    rcases List.mem_cons.mp member with rfl | second
    · rfl
    · rw [List.mem_singleton.mp second]
  intro complete
  have dropsNothing := ((group_answers_across_restarts pushCrates (.push .fcm) _ restartedGroup taken
    fun i => PushService.running pushCrates .fcm (restartedInputs i)).2 known commits).2.2.mp complete
  obtain ⟨stopped, returned, nothing⟩ := dropsNothing false
  obtain ⟨-, -, rfl⟩ := (stop_eq_some_iff _ _ _).mp returned
  exact List.cons_ne_nil _ _ nothing

end XorcNotifications
