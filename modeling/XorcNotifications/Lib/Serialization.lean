import XorcNotifications.Lib.Guards
import XorcNotifications.Lib.Machine

/-!
# Operations that behave as if they were atomic

A reader and a writer take operations one after another and run the program of each, step by
step and interleaved in any way.  The state remembers the operations in the order in which they
take effect, each at its own look or store, or else at its last step.

Run one by one in that order, with nobody in between, the operations come to the same table, and
to what each thread makes of its part of the world.
-/

namespace Guards

open Machines Program Function

variable {Op T W : Type}

/-- Operations with their programs, each of which keeps to the role of its operation. -/
structure Operations (Op T W : Type) where
  program : Op → Program T W
  role : Op → Role
  views : Views W
  keepsTo : ∀ op, (program op).KeepsTo views (role op) none false

/-- An operation that has been begun, with its number once it has taken effect. -/
structure Running (Op T W : Type) where
  op : Op
  thread : Thread T W
  number : Option Nat

structure State (Op T W : Type) where
  table : T
  world : W
  threads : Role → Option (Running Op T W)
  order : List Op

namespace State

def start (table : T) (world : W) : State Op T W := ⟨table, world, fun _ => none, []⟩

def held (s : State Op T W) (role : Role) : Option Mode := (s.threads role).bind (·.thread.held)

end State

inductive Action (Op : Type) where
  | call (op : Op)
  | step (role : Role)

namespace Operations

variable (ops : Operations Op T W)

/-- The step of a thread that runs an operation. -/
def advance (s : State Op T W) (role : Role) (running : Running Op T W) : Option (State Op T W) :=
  match running.thread.finish with
  | some effect =>
    match running.number with
    | some number => some ⟨s.table, effect number s.world, update s.threads role none, s.order⟩
    | none =>
      some ⟨s.table, effect s.order.length s.world, update s.threads role none, s.order ++ [running.op]⟩
  | none =>
    (next (s.held role.other) running.thread (s.table, s.world)).map fun (thread, table, world) =>
      if takesEffect role running.thread.program then
        ⟨table, world, update s.threads role (some ⟨running.op, thread, some s.order.length⟩),
          s.order ++ [running.op]⟩
      else ⟨table, world, update s.threads role (some { running with thread }), s.order⟩

def step : Machine (State Op T W) (Action Op)
  | s, .call op =>
    match s.threads (ops.role op) with
    | some _ => none
    | none =>
      some { s with threads := update s.threads (ops.role op) (some ⟨op, ⟨none, ops.program op⟩, none⟩) }
  | s, .step role => (s.threads role).bind (advance s role)

/-- What a step of a thread can do: end the operation, take effect, or neither. -/
inductive Advances (s : State Op T W) (role : Role) : Running Op T W → State Op T W → Prop
  | ends {op effect} {number : Nat} :
    Advances s role ⟨op, ⟨none, .done effect⟩, some number⟩
      ⟨s.table, effect number s.world, update s.threads role none, s.order⟩
  | endsEffective {op effect} :
    Advances s role ⟨op, ⟨none, .done effect⟩, none⟩
      ⟨s.table, effect s.order.length s.world, update s.threads role none, s.order ++ [op]⟩
  | effective {op thread number thread' table world}
    (stepped : next (s.held role.other) thread (s.table, s.world) = some (thread', table, world))
    (takes : takesEffect role thread.program = true) :
    Advances s role ⟨op, thread, number⟩
      ⟨table, world, update s.threads role (some ⟨op, thread', some s.order.length⟩), s.order ++ [op]⟩
  | quiet {op thread number thread' table world}
    (stepped : next (s.held role.other) thread (s.table, s.world) = some (thread', table, world))
    (takes : takesEffect role thread.program = false) :
    Advances s role ⟨op, thread, number⟩
      ⟨table, world, update s.threads role (some ⟨op, thread', number⟩), s.order⟩

theorem advances_of_advance {s s' : State Op T W} {role : Role} {running : Running Op T W}
    (advanced : advance s role running = some s') : Advances s role running s' := by
  obtain ⟨op, thread, number⟩ := running
  rw [advance] at advanced
  cases ended : thread.finish with
  | some effect =>
    obtain rfl := eq_of_finish ended
    cases number with
    | some number =>
      simp only [ended] at advanced
      cases advanced
      exact .ends
    | none =>
      simp only [ended] at advanced
      cases advanced
      exact .endsEffective
  | none =>
    simp only [ended] at advanced
    obtain ⟨⟨thread', table, world⟩, stepped, rfl⟩ := Option.map_eq_some_iff.mp advanced
    by_cases takes : takesEffect role thread.program = true
    · rw [if_pos takes]
      exact .effective stepped takes
    · rw [if_neg takes]
      exact .quiet stepped (Bool.eq_false_iff.mpr takes)

/-! ## One operation after another -/

def atomically (s : T × W) (n : Nat) (op : Op) : T × W :=
  ((ops.program op).tableAfter s.1, (ops.program op).effect s.1 n s.2)

def serial (s : T × W) (order : List Op) : T × W :=
  order.zipIdx.foldl (fun reached op => ops.atomically reached op.2 op.1) s

theorem serial_concat (s : T × W) (order : List Op) (op : Op) :
    ops.serial s (order ++ [op]) = ops.atomically (ops.serial s order) order.length op := by
  simp only [serial, List.zipIdx_append, List.foldl_append, List.zipIdx_cons, List.zipIdx_nil,
    List.foldl_cons, List.foldl_nil, Nat.zero_add]

theorem acts_of_role {op : Op} {role : Role} (runs : ops.role op = role) (t : T) (n : Nat) :
    ops.views.Acts role ((ops.program op).effect t n) :=
  runs ▸ acts_of_keepsTo (ops.keepsTo op) t n

/-! ## The invariant -/

/-- What a thread has made of the world agrees with what its operations have come to, one after
    another.  An operation that has not taken effect yet is still to come there. -/
def Agrees (role : Role) (table : T) (world reached : W) : Option (Running Op T W) → Prop
  | none => ops.views.same role world reached
  | some ⟨op, thread, none⟩ =>
    ops.role op = role ∧ thread.program.KeepsTo ops.views role thread.held false ∧
      ∀ t, Sees role table t → thread.program.tableAfter t = (ops.program op).tableAfter t ∧
        ∀ n, ops.views.same role (thread.program.effect t n world) ((ops.program op).effect t n reached)
  | some ⟨op, thread, some n⟩ =>
    ops.role op = role ∧ thread.program.KeepsTo ops.views role thread.held true ∧
      ∀ t, Sees role table t → ops.views.same role (thread.program.effect t n world) reached

/-- What one thread does to its part of the world, and to the table if it is the writer, does not
    disturb what the other one agrees on. -/
theorem agrees_frame {role : Role} {table table' : T} {world reached : W} {effect effect' : W → W}
    (acts : ops.views.Acts role effect) (acts' : ops.views.Acts role effect')
    (sound : ops.views.Sound world) (soundReached : ops.views.Sound reached)
    (tables : role = .reader → table' = table) {running : Option (Running Op T W)}
    (agrees : ops.Agrees role.other table world reached running) :
    ops.Agrees role.other table' (effect world) (effect' reached) running := by
  have sees : ∀ t, Sees role.other table' t → Sees role.other table t := fun t sees writes =>
    (sees writes).trans (tables (Role.eq_reader_of_other writes))
  have framed := acts.frame sound
  have framed' := ops.views.symm (acts'.frame soundReached)
  match running, agrees with
  | none, agrees => exact ops.views.trans framed (ops.views.trans agrees framed')
  | some ⟨op, thread, none⟩, ⟨runs, keeps, agrees⟩ =>
    refine ⟨runs, keeps, fun t seen => ⟨(agrees t (sees t seen)).1, fun n => ?_⟩⟩
    have mine := acts_of_keepsTo keeps t n
    have whole := ops.acts_of_role runs t n
    exact ops.views.trans (mine.respects framed)
      (ops.views.trans ((agrees t (sees t seen)).2 n) (whole.respects framed'))
  | some ⟨op, thread, some n⟩, ⟨runs, keeps, agrees⟩ =>
    refine ⟨runs, keeps, fun t seen => ?_⟩
    have mine := acts_of_keepsTo keeps t n
    exact ops.views.trans (mine.respects framed) (ops.views.trans (agrees t (sees t seen)) framed')

/-- A step that does not take effect leaves a thread where its operation was to come to. -/
theorem agrees_next_of_quiet {role : Role} {others : Option Mode} {op : Op} {thread thread' : Thread T W}
    {number : Option Nat} {table table' : T} {world world' reached : W}
    (agrees : ops.Agrees role table world reached (some ⟨op, thread, number⟩))
    (quiet : takesEffect role thread.program = false)
    (stepped : next others thread (table, world) = some (thread', table', world')) :
    ops.Agrees role table' world' reached (some ⟨op, thread', number⟩) ∧ table' = table ∧
      ∃ effect, ops.views.Acts role effect ∧ world' = effect world := by
  cases number with
  | none =>
    obtain ⟨runs, keeps, agrees⟩ := agrees
    obtain ⟨keeps', -, still, did⟩ := keepsTo_next keeps stepped
    obtain rfl : table' = table := still (.inl quiet)
    rw [quiet, Bool.or_false] at keeps'
    refine ⟨⟨runs, keeps', fun t seen => ?_⟩, rfl, did⟩
    obtain ⟨sameTables, sameEffects⟩ := comesTo_next_of_quiet keeps quiet stepped seen
    rw [sameTables]
    refine ⟨(agrees t seen).1, fun n => ?_⟩
    rw [sameEffects n]
    exact (agrees t seen).2 n
  | some number =>
    obtain ⟨runs, keeps, agrees⟩ := agrees
    obtain ⟨keeps', -, still, did⟩ := keepsTo_next keeps stepped
    obtain rfl : table' = table := still (.inl quiet)
    rw [quiet, Bool.or_false] at keeps'
    refine ⟨⟨runs, keeps', fun t seen => ?_⟩, rfl, did⟩
    rw [(comesTo_next_of_quiet keeps quiet stepped seen).2 number]
    exact agrees t seen

structure Follows (first : T × W) (s : State Op T W) : Prop where
  table : s.table = (ops.serial first s.order).1
  sound : ops.views.Sound s.world
  soundSerial : ops.views.Sound (ops.serial first s.order).2
  apart : ∀ role, Apart (s.held role) (s.held role.other)
  agrees : ∀ role, ops.Agrees role s.table s.world (ops.serial first s.order).2 (s.threads role)

theorem follows_start {table : T} {world : W} (sound : ops.views.Sound world) :
    ops.Follows (table, world) (.start table world) :=
  ⟨rfl, sound, sound, fun _ => apart_none none, fun role => sound role⟩

variable {ops} {first : T × W} {s s' : State Op T W}

/-- A step of one thread keeps the invariant if it does so for this thread. -/
theorem Follows.of_step (follows : ops.Follows first s) {role : Role} {running : Option (Running Op T W)}
    {effect effect' : W → W} (acts : ops.views.Acts role effect) (acts' : ops.views.Acts role effect')
    (threads : s'.threads = update s.threads role running) (world : s'.world = effect s.world)
    (reached : (ops.serial first s'.order).2 = effect' (ops.serial first s.order).2)
    (table : s'.table = (ops.serial first s'.order).1) (tables : role = .reader → s'.table = s.table)
    (apart : Apart (running.bind (·.thread.held)) (s.held role.other))
    (agrees : ops.Agrees role s'.table s'.world (ops.serial first s'.order).2 running) :
    ops.Follows first s' := by
  have mine : s'.threads role = running := by rw [threads, update_self]
  have others : s'.threads role.other = s.threads role.other := by
    rw [threads, update_of_ne role.other_ne]
  refine ⟨table, ?_, ?_, fun role' => ?_, fun role' => ?_⟩
  · rw [world]
    exact acts.sound follows.sound
  · rw [reached]
    exact acts'.sound follows.soundSerial
  · rcases role.eq_or_eq_other role' with rfl | rfl
    · rw [State.held, State.held, mine, others]
      exact apart
    · rw [Role.other_other, State.held, State.held, mine, others]
      exact apart.symm
  · rcases role.eq_or_eq_other role' with rfl | rfl
    · rw [mine]
      exact agrees
    · rw [others, world, reached]
      exact ops.agrees_frame acts acts' follows.sound follows.soundSerial tables (follows.agrees _)

theorem Follows.call (follows : ops.Follows first s) {op : Op} (stepped : ops.step s (.call op) = some s') :
    ops.Follows first s' := by
  have agrees := follows.agrees (ops.role op)
  rw [step] at stepped
  split at stepped
  · cases stepped
  case _ idle =>
    cases stepped
    rw [idle] at agrees
    refine follows.of_step Views.acts_id Views.acts_id rfl rfl rfl follows.table (fun _ => rfl)
      (apart_none _) ⟨rfl, ops.keepsTo op, fun t _ => ⟨rfl, fun n => ?_⟩⟩
    exact (acts_of_keepsTo (ops.keepsTo op) t n).respects agrees

theorem Follows.serial_concat (follows : ops.Follows first s) (op : Op) :
    ops.serial first (s.order ++ [op]) = ((ops.program op).tableAfter s.table,
      (ops.program op).effect s.table s.order.length (ops.serial first s.order).2) := by
  rw [Operations.serial_concat, atomically, ← follows.table]

theorem Follows.advance (follows : ops.Follows first s) {role : Role} {running : Running Op T W}
    (threads : s.threads role = some running) (advances : Advances s role running s') :
    ops.Follows first s' := by
  have agrees := follows.agrees role
  rw [threads] at agrees
  have apart := follows.apart role
  rw [State.held, threads] at apart
  cases advances with
  | @ends op effect number =>
    obtain ⟨-, ⟨-, acts⟩, agrees⟩ := agrees
    exact follows.of_step (acts number) Views.acts_id rfl rfl rfl follows.table (fun _ => rfl)
      (apart_none _) (agrees s.table fun _ => rfl)
  | @endsEffective op effect =>
    obtain ⟨runs, ⟨-, acts⟩, agrees⟩ := agrees
    obtain ⟨tables, effects⟩ := agrees s.table fun _ => rfl
    have reached := follows.serial_concat op
    refine follows.of_step (acts s.order.length) (ops.acts_of_role runs _ _) rfl rfl (congrArg Prod.snd reached)
      (tables.trans (congrArg Prod.fst reached).symm) (fun _ => rfl) (apart_none _) ?_
    rw [reached]
    exact effects s.order.length
  | @effective op thread number thread' table world stepped takes =>
    cases number with
    | some number =>
      -- An operation takes effect once.
      obtain ⟨-, keeps, -⟩ := agrees
      cases (keepsTo_next keeps stepped).2.1 takes
    | none =>
      obtain ⟨runs, keeps, agrees⟩ := agrees
      obtain ⟨tables, effects⟩ := agrees s.table fun _ => rfl
      obtain ⟨keeps', -, still, effect, acts, did⟩ := keepsTo_next keeps stepped
      obtain ⟨after, left⟩ := comesTo_next_of_effective keeps takes stepped
      rw [takes, Bool.or_true] at keeps'
      have reached := follows.serial_concat op
      refine follows.of_step acts (ops.acts_of_role runs _ _) rfl did (congrArg Prod.snd reached)
        (after.trans (tables.trans (congrArg Prod.fst reached).symm)) (fun reads => still (.inr reads))
        (apart_next stepped apart) ⟨runs, keeps', fun t seen => ?_⟩
      rw [reached, left t seen]
      exact effects s.order.length
  | @quiet op thread number thread' table world stepped takes =>
    obtain ⟨agrees', rfl, effect, acts, did⟩ := ops.agrees_next_of_quiet agrees takes stepped
    exact follows.of_step acts Views.acts_id rfl did rfl follows.table (fun _ => rfl)
      (apart_next stepped apart) agrees'

theorem Follows.step (follows : ops.Follows first s) {action : Action Op}
    (stepped : ops.step s action = some s') : ops.Follows first s' := by
  cases action with
  | call op => exact follows.call stepped
  | step role =>
    obtain ⟨running, threads, advanced⟩ := Option.bind_eq_some_iff.mp stepped
    exact follows.advance threads (advances_of_advance advanced)

theorem follows_of_run (follows : ops.Follows first s) {actions : List (Action Op)}
    (ran : ops.step.run s actions = some s') : ops.Follows first s' :=
  Machine.holds_of_every_run (fun follows stepped => Follows.step follows stepped) follows ran

/-! ## The order of the operations -/

theorem Follows.runs (follows : ops.Follows first s) {role : Role} {running : Running Op T W}
    (threads : s.threads role = some running) : ops.role running.op = role := by
  have agrees := follows.agrees role
  rw [threads] at agrees
  obtain ⟨op, thread, _ | n⟩ := running <;> exact agrees.1

theorem Follows.keepsTo (follows : ops.Follows first s) {role : Role} {running : Running Op T W}
    (threads : s.threads role = some running) :
    ∃ effective, running.thread.program.KeepsTo ops.views role running.thread.held effective := by
  have agrees := follows.agrees role
  rw [threads] at agrees
  obtain ⟨op, thread, _ | n⟩ := running <;> exact ⟨_, agrees.2.1⟩

/-- An operation that has been begun and has not taken effect. -/
def pending : Option (Running Op T W) → List Op
  | some ⟨op, _, none⟩ => [op]
  | _ => []

variable (ops) in
/-- The operations a thread has begun, in the order in which it has. -/
def begun (role : Role) (actions : List (Action Op)) : List Op :=
  actions.filterMap fun
    | .call op => if ops.role op = role then some op else none
    | .step _ => none

variable (ops) in
/-- The operations of a thread, so far as the state tells them. -/
def known (role : Role) (s : State Op T W) : List Op :=
  s.order.filter (ops.role · = role) ++ pending (s.threads role)

theorem known_advance (follows : ops.Follows first s) {role role' : Role} {running : Running Op T W}
    (threads : s.threads role = some running) (advances : Advances s role running s') :
    ops.known role' s' = ops.known role' s := by
  have runs := follows.runs threads
  have agrees := follows.agrees role
  rw [threads] at agrees
  rcases role.eq_or_eq_other role' with rfl | rfl
  · rw [known, known, threads]
    cases advances with
    | ends => simp [pending]
    | endsEffective => simp [pending, runs]
    | @effective op thread number thread' table world stepped takes =>
      cases number with
      | some number => cases (keepsTo_next agrees.2.1 stepped).2.1 takes
      | none => simp [pending, runs]
    | @quiet op thread number thread' table world stepped takes => cases number <;> simp [pending]
  · have others : ops.role running.op ≠ role.other := runs ▸ (Role.other_ne _).symm
    cases advances <;> simp_all [known, role.other_ne]

theorem known_step (follows : ops.Follows first s) {action : Action Op} {role : Role}
    (stepped : ops.step s action = some s') :
    ops.known role s' = ops.known role s ++ ops.begun role [action] := by
  cases action with
  | call op =>
    rw [step] at stepped
    split at stepped
    · cases stepped
    case _ idle =>
      cases stepped
      by_cases runs : ops.role op = role
      · subst runs
        simp [known, begun, idle, pending]
      · simp [known, begun, runs, update_of_ne (Ne.symm runs)]
  | step role' =>
    obtain ⟨running, threads, advanced⟩ := Option.bind_eq_some_iff.mp stepped
    rw [known_advance follows threads (advances_of_advance advanced)]
    simp [begun]

theorem known_of_run {table : T} {world : W} (sound : ops.views.Sound world) {actions : List (Action Op)}
    (ran : ops.step.run (.start table world) actions = some s) (role : Role) :
    ops.known role s = ops.begun role actions := by
  induction actions using List.reverseRecOn generalizing s with
  | nil =>
    cases ran
    rfl
  | append_singleton before action inductionHypothesis =>
    rw [Machine.run_concat] at ran
    obtain ⟨reached, ranBefore, stepped⟩ := Option.bind_eq_some_iff.mp ran
    have follows := follows_of_run (ops.follows_start sound) ranBefore
    rw [known_step follows stepped, inductionHypothesis ranBefore, begun, begun, begun,
      List.filterMap_append]

theorem order_prefix_step {action : Action Op} (stepped : ops.step s action = some s') :
    s.order <+: s'.order := by
  cases action with
  | call op =>
    rw [step] at stepped
    split at stepped <;> cases stepped
    exact List.prefix_refl _
  | step role =>
    obtain ⟨running, -, advanced⟩ := Option.bind_eq_some_iff.mp stepped
    cases advances_of_advance advanced with
    | ends => exact List.prefix_refl _
    | endsEffective => exact List.prefix_append ..
    | effective => exact List.prefix_append ..
    | quiet => exact List.prefix_refl _

/-- Whatever has taken effect before an operation is begun comes before it in the order. -/
theorem order_prefix_run {actions : List (Action Op)} (ran : ops.step.run s actions = some s') :
    s.order <+: s'.order :=
  @Machine.holds_of_every_run _ _ ops.step (fun s' => s.order <+: s'.order)
    (fun earlier stepped => earlier.trans (order_prefix_step stepped)) _ (List.prefix_refl _) _ _ ran

/-! ## Nobody waits forever -/

theorem advance_of_next {role : Role} {op : Op} {thread thread' : Thread T W} {number : Option Nat}
    {t : T} {w : W} (stepped : next (s.held role.other) thread (s.table, s.world) = some (thread', t, w)) :
    ∃ s' number', advance s role ⟨op, thread, number⟩ = some s' ∧
      s'.threads = update s.threads role (some ⟨op, thread', number'⟩) := by
  simp only [advance, finish_of_next stepped, stepped, Option.map_some]
  by_cases takes : takesEffect role thread.program = true
  · rw [if_pos takes]
    exact ⟨_, some s.order.length, rfl, rfl⟩
  · rw [if_neg takes]
    exact ⟨_, number, rfl, rfl⟩

theorem advance_of_done {role : Role} (op : Op) (effect : Nat → W → W) (number : Option Nat) :
    ∃ s', advance s role ⟨op, ⟨none, .done effect⟩, number⟩ = some s' ∧
      s'.threads = update s.threads role none := by
  cases number <;> exact ⟨_, rfl, rfl⟩

variable (ops) in
/-- The thread has come to the end of its operation, by steps of its own. -/
def Ends (role : Role) (s : State Op T W) : Prop :=
  ∃ n s', ops.step.run s (List.replicate n (.step role)) = some s' ∧
    s'.threads = update s.threads role none

theorem ends_of_advance {role : Role} {running : Running Op T W} {running' : Option (Running Op T W)}
    (threads : s.threads role = some running) (advanced : advance s role running = some s')
    (left : s'.threads = update s.threads role running') (ends : ops.Ends role s') : ops.Ends role s := by
  obtain ⟨n, s'', ran, ended⟩ := ends
  refine ⟨n + 1, s'', ?_, ?_⟩
  · rw [List.replicate_succ, Machine.run_cons, step, threads]
    exact (congrArg (Option.bind · _) advanced).trans ran
  · rw [ended, left, update_idem]

theorem ends_of_next {role : Role} {op : Op} {thread thread' : Thread T W} {number : Option Nat} {t : T} {w : W}
    (threads : s.threads role = some ⟨op, thread, number⟩) (free : Free role (s.held role.other))
    (stepped : next (s.held role.other) thread (s.table, s.world) = some (thread', t, w))
    (ends : ∀ {s' number'}, s'.threads role = some ⟨op, thread', number'⟩ →
      Free role (s'.held role.other) → ops.Ends role s') : ops.Ends role s := by
  obtain ⟨s', number', advanced, left⟩ := @advance_of_next _ _ _ s role op thread thread' number t w stepped
  have threads' : s'.threads role = some ⟨op, thread', number'⟩ := by rw [left, update_self]
  have free' : Free role (s'.held role.other) := by rwa [State.held, left, update_of_ne role.other_ne]
  exact ends_of_advance threads advanced left (ends threads' free')

theorem ends_of_free {role : Role} {op : Op} {held : Option Mode} {p : Program T W} {number : Option Nat}
    {effective : Bool} (threads : s.threads role = some ⟨op, ⟨held, p⟩, number⟩)
    (keeps : p.KeepsTo ops.views role held effective) (free : Free role (s.held role.other)) :
    ops.Ends role s := by
  induction p generalizing s held number effective with
  | done effect =>
    obtain ⟨rfl, -⟩ := keeps
    obtain ⟨s', advanced, left⟩ := @advance_of_done _ _ _ s role op effect number
    exact ends_of_advance threads advanced left ⟨0, s', rfl, by rw [left, update_idem]⟩
  | act effect rest inductionHypothesis =>
    exact ends_of_next threads free (by cases held <;> rfl) fun threads' =>
      inductionHypothesis threads' keeps.2
  | lock mode rest inductionHypothesis =>
    obtain ⟨rfl, reads, keeps⟩ := keeps
    exact ends_of_next threads free (by rw [next, if_pos (free.admits reads)]) fun threads' =>
      inductionHypothesis threads' keeps
  | unlock rest inductionHypothesis =>
    obtain ⟨mode, rfl⟩ := Option.ne_none_iff_exists'.mp keeps.1
    exact ends_of_next threads free rfl fun threads' => inductionHypothesis threads' keeps.2
  | look rest inductionHypothesis =>
    obtain ⟨mode, rfl⟩ := Option.ne_none_iff_exists'.mp keeps.1
    exact ends_of_next threads free rfl fun threads' =>
      inductionHypothesis s.table threads' (keeps.2.2 s.table)
  | store t rest inductionHypothesis =>
    obtain ⟨-, rfl, -, keeps⟩ := keeps
    exact ends_of_next threads free rfl fun threads' => inductionHypothesis threads' keeps

/-- A thread that is not kept waiting ends its operation, if it runs one. -/
theorem Follows.ends (follows : ops.Follows first s) {role : Role} (free : Free role (s.held role.other)) :
    ops.Ends role s := by
  cases threads : s.threads role with
  | none => exact ⟨0, s, rfl, by rw [← threads, update_eq_self]⟩
  | some running =>
    obtain ⟨effective, keeps⟩ := follows.keepsTo threads
    exact ends_of_free threads keeps free

variable (ops) in
/-- Both threads have come to the end of their operations, without beginning any other. -/
def Settles (s : State Op T W) : Prop :=
  ∃ (roles : List Role) (s' : State Op T W), ops.step.run s (roles.map .step) = some s' ∧
    ∀ role, s'.threads role = none

theorem settles_of_ends {role : Role} (follows : ops.Follows first s) (ends : ops.Ends role s) :
    ops.Settles s := by
  obtain ⟨n, s', ran, left⟩ := ends
  have mine : s'.threads role = none := by rw [left, update_self]
  -- The other thread is alone now.
  have free : Free role.other (s'.held role.other.other) := by
    rw [Role.other_other, State.held, mine]
    exact ⟨fun _ impossible => (nomatch impossible), fun _ => rfl⟩
  obtain ⟨m, s'', ran', left'⟩ := (follows_of_run follows ran).ends free
  refine ⟨List.replicate n role ++ List.replicate m role.other, s'', ?_, fun role' => ?_⟩
  · rw [List.map_append, List.map_replicate, List.map_replicate, Machine.run_append, ran]
    exact ran'
  · rcases role.eq_or_eq_other role' with rfl | rfl
    · rw [left', update_of_ne (Role.other_ne _).symm, mine]
    · rw [left', update_self]

/-- Whatever guards are held, somebody can go on until nobody holds any. -/
theorem Follows.settles (follows : ops.Follows first s) : ops.Settles s := by
  by_cases writes : s.held .writer = some .write
  · -- A writer under its guard is alone.
    have alone : s.held .reader = none := (follows.apart .writer).1 writes
    have free : Free .writer (s.held .reader) := ⟨fun reads => (nomatch reads), fun _ => alone⟩
    exact settles_of_ends follows (follows.ends free)
  · have free : Free .reader (s.held .writer) := ⟨fun _ => writes, fun impossible => (nomatch impossible)⟩
    exact settles_of_ends follows (follows.ends free)

end Operations

end Guards
