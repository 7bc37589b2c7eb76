import XorcNotifications.Lib.Serialization

/-!
# What the writer keeps

A relation between the table and the writer's part of the world is broken and mended again in the
course of an operation.  What an operation passes through if nobody interferes it passes through
in every run, since the reader changes neither the table nor what the writer can tell apart of the
world.
-/

namespace Guards

open Machines Program Function

variable {Op T W : Type}

/-- The relation does not depend on more of the world than the role can tell apart. -/
def Views.Seen (views : Views W) (role : Role) (relation : T → W → Prop) : Prop :=
  ∀ t w w', views.same role w w' → relation t w → relation t w'

/-! ## One program -/

namespace Program

/-- Alone, the program passes through one relation, and ends in the other one. -/
def Passes (amid between : T → W → Prop) : Program T W → T → W → Prop
  | .done effect, t, w => amid t w ∧ ∀ n, between t (effect n w)
  | .act effect rest, t, w => amid t w ∧ rest.Passes amid between t (effect w)
  | .lock _ rest, t, w => amid t w ∧ rest.Passes amid between t w
  | .unlock rest, t, w => amid t w ∧ rest.Passes amid between t w
  | .look rest, t, w => amid t w ∧ (rest t).Passes amid between t w
  | .store t' rest, t, w => amid t w ∧ rest.Passes amid between t' w

variable {amid between : T → W → Prop}

theorem Passes.now {p : Program T W} {t : T} {w : W} (passes : p.Passes amid between t w) : amid t w := by
  cases p <;> exact passes.1

theorem Passes.next {others : Option Mode} {thread thread' : Thread T W} {s s' : T × W}
    (passes : thread.program.Passes amid between s.1 s.2)
    (stepped : next others thread s = some (thread', s')) :
    thread'.program.Passes amid between s'.1 s'.2 := by
  cases steps_of_next stepped <;> exact passes.2

theorem Passes.of_same {views : Views W} (seenAmid : views.Seen .writer amid)
    (seenBetween : views.Seen .writer between) {p : Program T W} {held : Option Mode} {effective : Bool}
    (keeps : p.KeepsTo views .writer held effective) {t : T} {w w' : W} (same : views.same .writer w w')
    (passes : p.Passes amid between t w) : p.Passes amid between t w' := by
  have now := seenAmid t w w' same passes.now
  induction p generalizing t w w' held effective with
  | done effect => exact ⟨now, fun n => seenBetween _ _ _ ((keeps.2 n).respects same) (passes.2 n)⟩
  | act effect rest inductionHypothesis =>
    have same' := keeps.1.respects same
    exact ⟨now, inductionHypothesis keeps.2 same' passes.2 (seenAmid _ _ _ same' passes.2.now)⟩
  | lock mode rest inductionHypothesis => exact ⟨now, inductionHypothesis keeps.2.2 same passes.2 now⟩
  | unlock rest inductionHypothesis => exact ⟨now, inductionHypothesis keeps.2 same passes.2 now⟩
  | look rest inductionHypothesis => exact ⟨now, inductionHypothesis t (keeps.2.2 t) same passes.2 now⟩
  | store t' rest inductionHypothesis =>
    exact ⟨now, inductionHypothesis keeps.2.2.2 same passes.2 (seenAmid _ _ _ same passes.2.now)⟩

end Program

/-! ## Every interleaving -/

namespace Operations

variable (ops : Operations Op T W) (amid between : T → W → Prop)

/-- What the operations of the writer do to two relations, of which the second is the stronger one. -/
structure Mends : Prop where
  seenAmid : ops.views.Seen .writer amid
  seenBetween : ops.views.Seen .writer between
  weaker : ∀ t w, between t w → amid t w
  passes : ∀ op, ops.role op = .writer → ∀ t w, between t w → (ops.program op).Passes amid between t w

/-- The writer is between two operations, or has still to pass through the rest of one. -/
def Mending (table : T) (world : W) : Option (Running Op T W) → Prop
  | none => between table world
  | some running => running.thread.program.Passes amid between table world

variable {ops amid between} {first : T × W} {s s' : State Op T W}

theorem threads_other {role : Role} {running : Running Op T W} (advances : Advances s role running s') :
    s'.threads role.other = s.threads role.other := by
  cases advances <;> exact update_of_ne role.other_ne ..

/-- A step of the reader leaves the table to the writer, and the writer's part of the world. -/
theorem Follows.advance_reader (follows : ops.Follows first s) {running : Running Op T W}
    (threads : s.threads .reader = some running) (advances : Advances s .reader running s') :
    s'.table = s.table ∧ ops.views.same .writer s.world s'.world := by
  obtain ⟨effective, keeps⟩ := follows.keepsTo threads
  have frame : ∀ effect, ops.views.Acts .reader effect → ops.views.same .writer s.world (effect s.world) :=
    fun effect acts => ops.views.symm (acts.frame follows.sound)
  have framed : ∀ {thread' : Thread T W} {table world},
      next (s.held .writer) running.thread (s.table, s.world) = some (thread', table, world) →
      table = s.table ∧ ops.views.same .writer s.world world := fun stepped => by
    obtain ⟨-, -, still, effect, acts, did⟩ := keepsTo_next keeps stepped
    obtain rfl : _ = effect s.world := did
    exact ⟨still (.inr rfl), frame effect acts⟩
  cases advances with
  | @ends op effect number => exact ⟨rfl, frame _ (keeps.2 number)⟩
  | @endsEffective op effect => exact ⟨rfl, frame _ (keeps.2 s.order.length)⟩
  | effective stepped takes => exact framed stepped
  | quiet stepped takes => exact framed stepped

theorem mending_reader (mends : ops.Mends amid between) (follows : ops.Follows first s)
    (mending : Mending amid between s.table s.world (s.threads .writer)) {running : Running Op T W}
    (threads : s.threads .reader = some running) (advances : Advances s .reader running s') :
    Mending amid between s'.table s'.world (s'.threads .writer) := by
  obtain ⟨table, same⟩ := follows.advance_reader threads advances
  have writer : s'.threads .writer = s.threads .writer := threads_other advances
  rw [writer, table]
  cases writes : s.threads .writer with
  | none =>
    rw [writes] at mending
    exact mends.seenBetween _ _ _ same mending
  | some running' =>
    rw [writes] at mending
    obtain ⟨effective, keeps⟩ := follows.keepsTo writes
    exact Passes.of_same mends.seenAmid mends.seenBetween keeps same mending

theorem mending_of_update {threads : Role → Option (Running Op T W)} {running : Option (Running Op T W)}
    (updated : s.threads = update threads .writer running)
    (mending : Mending amid between s.table s.world running) :
    Mending amid between s.table s.world (s.threads .writer) := by
  rw [updated, update_self]
  exact mending

theorem mending_writer {running : Running Op T W}
    (passes : running.thread.program.Passes amid between s.table s.world)
    (advances : Advances s .writer running s') :
    Mending amid between s'.table s'.world (s'.threads .writer) := by
  cases advances with
  | @ends op effect number => exact mending_of_update rfl (passes.2 number)
  | @endsEffective op effect => exact mending_of_update rfl (passes.2 s.order.length)
  | effective stepped takes => exact mending_of_update rfl (passes.next stepped)
  | quiet stepped takes => exact mending_of_update rfl (passes.next stepped)

theorem mending_call (mends : ops.Mends amid between)
    (mending : Mending amid between s.table s.world (s.threads .writer)) {op : Op}
    (stepped : ops.step s (.call op) = some s') :
    Mending amid between s'.table s'.world (s'.threads .writer) := by
  rw [step] at stepped
  split at stepped
  · cases stepped
  case _ idle =>
    cases stepped
    cases runs : ops.role op with
    | writer =>
      rw [runs] at idle
      rw [idle] at mending
      exact mending_of_update rfl (mends.passes op runs _ _ mending)
    | reader => exact mending

theorem mending_step (mends : ops.Mends amid between) (follows : ops.Follows first s)
    (mending : Mending amid between s.table s.world (s.threads .writer)) {action : Action Op}
    (stepped : ops.step s action = some s') :
    Mending amid between s'.table s'.world (s'.threads .writer) := by
  cases action with
  | call op => exact mending_call mends mending stepped
  | step role =>
    obtain ⟨running, threads, advanced⟩ := Option.bind_eq_some_iff.mp stepped
    have advances := advances_of_advance advanced
    cases role with
    | reader => exact mending_reader mends follows mending threads advances
    | writer =>
      rw [threads] at mending
      exact mending_writer mending advances

/-- In whatever order the threads take their steps, the first relation holds all along, and the
    second one whenever the writer is between two operations. -/
theorem Mends.of_run (mends : ops.Mends amid between) {table : T} {world : W} (sound : ops.views.Sound world)
    (start : between table world) {actions : List (Action Op)}
    (ran : ops.step.run (.start table world) actions = some s) :
    amid s.table s.world ∧ (s.threads .writer = none → between s.table s.world) := by
  obtain ⟨-, mending⟩ := @Machine.holds_of_every_run _ _ ops.step
    (fun s => ops.Follows (table, world) s ∧ Mending amid between s.table s.world (s.threads .writer))
    (fun kept stepped => ⟨kept.1.step stepped, mending_step mends kept.1 kept.2 stepped⟩)
    (.start table world) ⟨ops.follows_start sound, start⟩ _ _ ran
  cases writes : s.threads .writer with
  | none =>
    rw [writes] at mending
    exact ⟨mends.weaker _ _ mending, fun _ => mending⟩
  | some running =>
    rw [writes] at mending
    exact ⟨mending.now, fun idle => nomatch idle⟩

end Operations

end Guards
