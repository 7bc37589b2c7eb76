import Mathlib.Logic.Function.Basic

/-!
# Programs under a read-write lock

Two threads share a table behind a read-write lock, and a world of which each of them works on
a part.  A program is what a thread does for one operation: it acts on the world, takes and
drops guards, and under a guard it looks at the table or stores a new one.

A reader looks at most once and never stores, a writer stores at most once.  That look and that
store are the steps at which an operation takes effect, and every other step leaves what the
rest of the program comes to as it was.
-/

namespace Guards

inductive Role where
  | reader
  | writer
deriving DecidableEq

def Role.other : Role → Role
  | .reader => .writer
  | .writer => .reader

@[simp] theorem Role.other_other (role : Role) : role.other.other = role := by cases role <;> rfl

theorem Role.other_ne (role : Role) : role.other ≠ role := by cases role <;> decide

theorem Role.eq_reader_of_other {role : Role} (writes : role.other = .writer) : role = .reader := by
  cases role with
  | reader => rfl
  | writer => cases writes

theorem Role.eq_or_eq_other (role role' : Role) : role' = role ∨ role' = role.other := by
  cases role <;> cases role' <;> decide

inductive Mode where
  | read
  | write
deriving DecidableEq

/-- Whether a guard can be had while the other thread holds this one. -/
def Mode.admits : Mode → Option Mode → Bool
  | .read, others => others ≠ some .write
  | .write, others => others = none

/-! ## Views of the world -/

/-- What each thread can tell apart of the world.  A relation need not be reflexive: a world
    that is not the same as itself is one that cannot occur. -/
structure Views (W : Type) where
  same : Role → W → W → Prop
  symm : ∀ {role w w'}, same role w w' → same role w' w
  trans : ∀ {role w w' w''}, same role w w' → same role w' w'' → same role w w''

namespace Views

variable {W : Type} (views : Views W)

def Sound (w : W) : Prop := ∀ role, views.same role w w

/-- The effect works on the part of the world that belongs to the role. -/
structure Acts (role : Role) (effect : W → W) : Prop where
  respects : ∀ {w w'}, views.same role w w' → views.same role (effect w) (effect w')
  frame : ∀ {w}, views.Sound w → views.same role.other (effect w) w

variable {views} {role : Role} {first second : W → W}

theorem Acts.sound (acts : views.Acts role first) {w : W} (sound : views.Sound w) :
    views.Sound (first w) := fun role' => by
  rcases role.eq_or_eq_other role' with rfl | rfl
  · exact acts.respects (sound _)
  · have framed := acts.frame sound
    exact views.trans framed (views.symm framed)

theorem Acts.comp (later : views.Acts role second) (earlier : views.Acts role first) :
    views.Acts role fun w => second (first w) :=
  ⟨fun same => later.respects (earlier.respects same),
    fun sound => views.trans (later.frame (earlier.sound sound)) (earlier.frame sound)⟩

theorem acts_id : views.Acts role fun w => w := ⟨fun same => same, fun sound => sound _⟩

end Views

/-! ## Programs -/

/-- The last step of a program is given the number of the operation: its position in the order
    in which the operations take effect. -/
inductive Program (T W : Type) where
  | done (effect : Nat → W → W)
  | act (effect : W → W) (rest : Program T W)
  | lock (mode : Mode) (rest : Program T W)
  | unlock (rest : Program T W)
  | look (rest : T → Program T W)
  | store (table : T) (rest : Program T W)

namespace Program

variable {T W : Type}

/-! ### What a program comes to if nobody interferes -/

def tableAfter : Program T W → T → T
  | .done _, t => t
  | .act _ rest, t => rest.tableAfter t
  | .lock _ rest, t => rest.tableAfter t
  | .unlock rest, t => rest.tableAfter t
  | .look rest, t => (rest t).tableAfter t
  | .store t rest, _ => rest.tableAfter t

def effect : Program T W → T → Nat → W → W
  | .done effect, _, n, w => effect n w
  | .act effect rest, t, n, w => rest.effect t n (effect w)
  | .lock _ rest, t, n, w => rest.effect t n w
  | .unlock rest, t, n, w => rest.effect t n w
  | .look rest, t, n, w => (rest t).effect t n w
  | .store t rest, _, n, w => rest.effect t n w

/-! ### One step -/

/-- A thread in the middle of a program: the guard it holds and what it has still to do. -/
structure Thread (T W : Type) where
  held : Option Mode
  program : Program T W

/-- The next step before the last, if the thread can take it.  Without a guard nobody touches
    the table, and who holds one takes no other. -/
def next (others : Option Mode) : Thread T W → T × W → Option (Thread T W × T × W)
  | ⟨_, .done _⟩, _ => none
  | ⟨held, .act effect rest⟩, (t, w) => some (⟨held, rest⟩, t, effect w)
  | ⟨none, .lock mode rest⟩, s => if mode.admits others then some (⟨some mode, rest⟩, s) else none
  | ⟨some _, .lock _ _⟩, _ => none
  | ⟨some _, .unlock rest⟩, s => some (⟨none, rest⟩, s)
  | ⟨none, .unlock _⟩, _ => none
  | ⟨some mode, .look rest⟩, (t, w) => some (⟨some mode, rest t⟩, t, w)
  | ⟨none, .look _⟩, _ => none
  | ⟨some .write, .store t rest⟩, (_, w) => some (⟨some .write, rest⟩, t, w)
  | ⟨some .read, .store _ _⟩, _ => none
  | ⟨none, .store _ _⟩, _ => none

/-- What a step can be. -/
inductive Steps (others : Option Mode) : Thread T W → T × W → Thread T W → T × W → Prop
  | act {held effect rest t w} : Steps others ⟨held, .act effect rest⟩ (t, w) ⟨held, rest⟩ (t, effect w)
  | lock {mode rest s} (admitted : mode.admits others = true) :
    Steps others ⟨none, .lock mode rest⟩ s ⟨some mode, rest⟩ s
  | unlock {mode rest s} : Steps others ⟨some mode, .unlock rest⟩ s ⟨none, rest⟩ s
  | look {mode rest t w} : Steps others ⟨some mode, .look rest⟩ (t, w) ⟨some mode, rest t⟩ (t, w)
  | store {t' rest t w} :
    Steps others ⟨some .write, .store t' rest⟩ (t, w) ⟨some .write, rest⟩ (t', w)

theorem steps_of_next {others : Option Mode} {thread thread' : Thread T W} {s s' : T × W}
    (stepped : next others thread s = some (thread', s')) : Steps others thread s thread' s' := by
  obtain ⟨held, program⟩ := thread
  cases program with
  | done effect => cases stepped
  | act effect rest =>
    cases stepped
    exact .act
  | lock mode rest =>
    cases held with
    | none =>
      rw [next, Option.ite_none_right_eq_some] at stepped
      cases stepped.2
      exact .lock stepped.1
    | some mode => cases stepped
  | unlock rest =>
    cases held <;> cases stepped
    exact .unlock
  | look rest =>
    cases held <;> cases stepped
    exact .look
  | store t rest =>
    rcases held with _ | _ | _ <;> cases stepped
    exact .store

/-- The effect of the last step, which nobody takes under a guard. -/
def Thread.finish : Thread T W → Option (Nat → W → W)
  | ⟨none, .done effect⟩ => some effect
  | _ => none

theorem eq_of_finish {thread : Thread T W} {effect : Nat → W → W} (ended : thread.finish = some effect) :
    thread = ⟨none, .done effect⟩ := by
  obtain ⟨held, program⟩ := thread
  cases held <;> cases program <;> cases ended
  rfl

/-- The step at which an operation takes effect, if it comes before the last. -/
def takesEffect (role : Role) : Program T W → Bool
  | .look _ => role = .reader
  | .store _ _ => role = .writer
  | _ => false

/-- No thread holds a guard for writing while the other one holds any. -/
def Apart (held others : Option Mode) : Prop :=
  (held = some .write → others = none) ∧ (others = some .write → held = none)

theorem Apart.symm {held others : Option Mode} (apart : Apart held others) : Apart others held :=
  ⟨apart.2, apart.1⟩

theorem apart_none (others : Option Mode) : Apart none others :=
  ⟨fun impossible => (nomatch impossible), fun _ => rfl⟩

theorem apart_next {others : Option Mode} {thread thread' : Thread T W} {s s' : T × W}
    (stepped : next others thread s = some (thread', s')) (apart : Apart thread.held others) :
    Apart thread'.held others := by
  cases steps_of_next stepped with
  | act => exact apart
  | @lock mode rest s admitted => cases mode <;> simp_all [Apart, Mode.admits]
  | unlock => exact apart_none others
  | look => exact apart
  | store => exact apart

/-! ### Readers and writers -/

/-- The program keeps to its role, from a moment on at which it holds this guard, and has or has
    not taken effect: its effects are the role's, it looks or stores as the role does, and it
    never locks under a guard or ends under one. -/
def KeepsTo (views : Views W) (role : Role) : Option Mode → Bool → Program T W → Prop
  | held, _, .done effect => held = none ∧ ∀ n, views.Acts role (effect n)
  | held, effective, .act effect rest => views.Acts role effect ∧ rest.KeepsTo views role held effective
  | held, effective, .lock mode rest =>
    held = none ∧ (role = .reader → mode = .read) ∧ rest.KeepsTo views role (some mode) effective
  | held, effective, .unlock rest => held ≠ none ∧ rest.KeepsTo views role none effective
  | held, effective, .look rest =>
    held ≠ none ∧ (role = .reader → effective = false) ∧
      ∀ t, (rest t).KeepsTo views role held (effective || role = .reader)
  | held, effective, .store _ rest =>
    role = .writer ∧ held = some .write ∧ effective = false ∧ rest.KeepsTo views role held true

theorem keepsTo_look_of_writer {views : Views W} {mode : Mode} {effective : Bool} {rest : T → Program T W}
    (rests : ∀ t, (rest t).KeepsTo views .writer (some mode) effective) :
    (Program.look rest).KeepsTo views .writer (some mode) effective :=
  ⟨fun impossible => (nomatch impossible), fun impossible => (nomatch impossible), fun t =>
    (Bool.or_false effective).symm ▸ rests t⟩

/-- The tables a thread has to reckon with.  Nobody but the writer changes the table, so the
    writer knows it. -/
def Sees (role : Role) (table t : T) : Prop := role = .writer → t = table

variable {views : Views W} {role : Role}

theorem acts_of_keepsTo {p : Program T W} {held : Option Mode} {effective : Bool}
    (keeps : p.KeepsTo views role held effective) (t : T) (n : Nat) : views.Acts role (p.effect t n) := by
  induction p generalizing t held effective with
  | done effect => exact keeps.2 n
  | act effect rest inductionHypothesis => exact (inductionHypothesis keeps.2 t).comp keeps.1
  | lock mode rest inductionHypothesis => exact inductionHypothesis keeps.2.2 t
  | unlock rest inductionHypothesis => exact inductionHypothesis keeps.2 t
  | look rest inductionHypothesis => exact inductionHypothesis t (keeps.2.2 t) t
  | store t' rest inductionHypothesis => exact inductionHypothesis keeps.2.2.2 t'

/-- Who has stored, or never stores, leaves the table alone. -/
theorem tableAfter_of_keepsTo {p : Program T W} {held : Option Mode} {effective : Bool}
    (keeps : p.KeepsTo views role held effective) (still : effective = true ∨ role = .reader) (t : T) :
    p.tableAfter t = t := by
  induction p generalizing held effective with
  | done effect => rfl
  | act effect rest inductionHypothesis => exact inductionHypothesis keeps.2 still
  | lock mode rest inductionHypothesis => exact inductionHypothesis keeps.2.2 still
  | unlock rest inductionHypothesis => exact inductionHypothesis keeps.2 still
  | look rest inductionHypothesis =>
    refine inductionHypothesis t (keeps.2.2 t) (still.imp_left fun effective => ?_)
    rw [effective, Bool.true_or]
  | store t' rest inductionHypothesis =>
    obtain ⟨rfl, -, rfl, -⟩ := keeps
    simp at still

/-- A reader that has looked does not depend on the table any more. -/
theorem effect_of_looked {p : Program T W} {held : Option Mode}
    (keeps : p.KeepsTo views .reader held true) (t t' : T) : p.effect t = p.effect t' := by
  induction p generalizing held with
  | done effect => rfl
  | act effect rest inductionHypothesis =>
    funext n w
    exact congrFun (congrFun (inductionHypothesis keeps.2) n) _
  | lock mode rest inductionHypothesis => exact inductionHypothesis keeps.2.2
  | unlock rest inductionHypothesis => exact inductionHypothesis keeps.2
  | look rest inductionHypothesis => exact nomatch keeps.2.1 rfl
  | store t'' rest inductionHypothesis => exact nomatch keeps.1

/-- The other thread holds nothing that would keep a thread of the role waiting. -/
def Free (role : Role) (others : Option Mode) : Prop :=
  (role = .reader → others ≠ some .write) ∧ (role = .writer → others = none)

theorem Free.admits {others : Option Mode} (free : Free role others) {mode : Mode}
    (reads : role = .reader → mode = .read) : mode.admits others = true := by
  cases role with
  | reader =>
    rw [reads rfl]
    exact decide_eq_true (free.1 rfl)
  | writer =>
    rw [free.2 rfl]
    cases mode <;> rfl

theorem finish_of_next {others : Option Mode} {thread thread' : Thread T W} {s s' : T × W}
    (stepped : next others thread s = some (thread', s')) : thread.finish = none := by
  cases steps_of_next stepped with
  | @act held => cases held <;> rfl
  | _ => rfl

/-! ### What a step changes -/

variable {others : Option Mode} {thread thread' : Thread T W} {s s' : T × W} {effective : Bool}

theorem keepsTo_next (keeps : thread.program.KeepsTo views role thread.held effective)
    (stepped : next others thread s = some (thread', s')) :
    thread'.program.KeepsTo views role thread'.held (effective || takesEffect role thread.program) ∧
      (takesEffect role thread.program = true → effective = false) ∧
      (takesEffect role thread.program = false ∨ role = .reader → s'.1 = s.1) ∧
      ∃ effect, views.Acts role effect ∧ s'.2 = effect s.2 := by
  have idle : ∃ effect, views.Acts role effect ∧ s.2 = effect s.2 := ⟨_, Views.acts_id, rfl⟩
  cases steps_of_next stepped with
  | @act held effect rest t w =>
    exact ⟨(Bool.or_false effective).symm ▸ keeps.2, fun takes => (nomatch takes), fun _ => rfl, effect,
      keeps.1, rfl⟩
  | lock admitted =>
    exact ⟨(Bool.or_false effective).symm ▸ keeps.2.2, fun takes => (nomatch takes), fun _ => rfl, idle⟩
  | unlock =>
    exact ⟨(Bool.or_false effective).symm ▸ keeps.2, fun takes => (nomatch takes), fun _ => rfl, idle⟩
  | @look mode rest t w =>
    exact ⟨keeps.2.2 t, fun takes => keeps.2.1 (of_decide_eq_true takes), fun _ => rfl, idle⟩
  | store =>
    obtain ⟨rfl, -, rfl, rests⟩ := keeps
    -- Of the two cases in which the table would be left alone neither is this one.
    exact ⟨rests, fun _ => rfl, fun alone => by simp [takesEffect] at alone, idle⟩

/-- A step does a part of what the program comes to, and leaves the rest to be done. -/
theorem comesTo_next (stepped : next others thread s = some (thread', s')) :
    thread'.program.tableAfter s'.1 = thread.program.tableAfter s.1 ∧
      ∀ n, thread'.program.effect s'.1 n s'.2 = thread.program.effect s.1 n s.2 := by
  cases steps_of_next stepped <;> exact ⟨rfl, fun _ => rfl⟩

/-- What a reader has still to do depends on the table it will look at, and on nothing earlier. -/
theorem comesTo_next_of_reader (keeps : thread.program.KeepsTo views .reader thread.held effective)
    (quiet : takesEffect .reader thread.program = false)
    (stepped : next others thread s = some (thread', s')) (t : T) (n : Nat) :
    thread'.program.effect t n s'.2 = thread.program.effect t n s.2 := by
  cases steps_of_next stepped with
  | look => exact nomatch quiet
  | store => exact nomatch keeps.1
  | _ => rfl

theorem comesTo_next_of_quiet (keeps : thread.program.KeepsTo views role thread.held effective)
    (quiet : takesEffect role thread.program = false)
    (stepped : next others thread s = some (thread', s')) {t : T} (sees : Sees role s.1 t) :
    thread'.program.tableAfter t = thread.program.tableAfter t ∧
      ∀ n, thread'.program.effect t n s'.2 = thread.program.effect t n s.2 := by
  obtain ⟨keeps', -, still, -⟩ := keepsTo_next keeps stepped
  cases role with
  | reader =>
    refine ⟨?_, comesTo_next_of_reader keeps quiet stepped t⟩
    rw [tableAfter_of_keepsTo keeps' (.inr rfl), tableAfter_of_keepsTo keeps (.inr rfl)]
  | writer =>
    obtain rfl := sees rfl
    have comes := comesTo_next stepped
    rwa [still (.inl quiet)] at comes

/-- After the step that takes effect the table is the one the program leaves, and what is left
    to be done does not depend on what the other thread does to it. -/
theorem comesTo_next_of_effective (keeps : thread.program.KeepsTo views role thread.held effective)
    (takes : takesEffect role thread.program = true)
    (stepped : next others thread s = some (thread', s')) :
    s'.1 = thread.program.tableAfter s.1 ∧ ∀ t, Sees role s'.1 t → ∀ n,
      thread'.program.effect t n s'.2 = thread.program.effect s.1 n s.2 := by
  obtain ⟨keeps', -, -, -⟩ := keepsTo_next keeps stepped
  rw [takes, Bool.or_true] at keeps'
  obtain ⟨tables, effects⟩ := comesTo_next stepped
  refine ⟨(tableAfter_of_keepsTo keeps' (.inl rfl) s'.1).symm.trans tables, fun t sees n => ?_⟩
  cases role with
  | reader => rw [effect_of_looked keeps' t s'.1, effects n]
  | writer => rw [sees rfl, effects n]

end Program

end Guards
