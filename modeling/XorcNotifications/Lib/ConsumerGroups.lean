import Mathlib.Algebra.BigOperators.Group.Finset.Piecewise
import Mathlib.Algebra.BigOperators.Group.Multiset.Basic
import Mathlib.Logic.Function.Basic

/-!
# Consumer groups

The members of a group share out a topic: each message goes to one of them, and every group gets
all the messages.  Which member gets which message is nobody's choice, so that some members of a
fleet answer each message of their topic once, whatever they are given, exactly if they are one of
the groups.
-/

namespace ConsumerGroups

open Function

variable {ι G T M R : Type} [Fintype ι] [DecidableEq ι] [DecidableEq G]

/-- The members of each group have together taken what there is in the topic of the group. -/
def SharesOut (group : ι → G) (topic : G → T) (messages : T → Multiset M) (taken : ι → Multiset M) : Prop :=
  ∀ i, ∑ j with group j = group i, taken j = messages (topic (group i))

/-- What is answered to some messages. -/
def answers (answer : M → Multiset R) : Multiset M →+ Multiset R :=
  Multiset.sumAddMonoidHom.comp (Multiset.mapAddMonoidHom answer)

theorem answers_eq (answer : M → Multiset R) (messages : Multiset M) :
    answers answer messages = (messages.map answer).sum := rfl

variable {group : ι → G} {topic : G → T} {messages : T → Multiset M} {taken : ι → Multiset M}

omit [DecidableEq ι] in
theorem sum_answers_of_group (shares : SharesOut group topic messages taken) (answer : M → Multiset R)
    {members : Finset ι} {i : ι} (isGroup : ∀ j, j ∈ members ↔ group j = group i) :
    ∑ j ∈ members, answers answer (taken j) = answers answer (messages (topic (group i))) := by
  have same : members = Finset.univ.filter (group · = group i) := by
    ext j
    simp [isGroup]
  rw [← map_sum, same, shares i]

/-! ## Leaders -/

/-- Of each group that has members one is chosen. -/
def Leads (group : ι → G) (leader : G → ι) : Prop := ∀ i, group (leader (group i)) = group i

omit [Fintype ι] [DecidableEq ι] [DecidableEq G] in
theorem exists_leads (group : ι → G) [Nonempty ι] : ∃ leader, Leads group leader :=
  ⟨invFun group, fun i => invFun_eq ⟨i, rfl⟩⟩

omit [Fintype ι] [DecidableEq ι] in
/-- Anybody can be made the leader. -/
theorem Leads.promote {leader : G → ι} (leads : Leads group leader) (j : ι) :
    Leads group (update leader (group j) j) := by
  intro i
  by_cases same : group i = group j
  · rw [same, update_self]
  · rw [update_of_ne same, leads i]

/-- The leaders take everything. -/
def led (group : ι → G) (topic : G → T) (messages : T → Multiset M) (leader : G → ι) (i : ι) : Multiset M :=
  if leader (group i) = i then messages (topic (group i)) else 0

theorem sharesOut_led {leader : G → ι} (leads : Leads group leader) :
    SharesOut group topic messages (led group topic messages leader) := by
  intro i
  have alone : ∀ j ∈ Finset.univ.filter (group · = group i), j ≠ leader (group i) →
      led group topic messages leader j = 0 := by
    intro j member other
    rw [Finset.mem_filter] at member
    rw [led, member.2, if_neg (Ne.symm other)]
  rw [Finset.sum_eq_single_of_mem (leader (group i)) (by simp [leads i]) alone, led, leads i, if_pos rfl]

omit [Fintype ι] [DecidableEq G] in
/-- Members whose groups have one topic answer it once for each of them that leads. -/
theorem sum_answers_led (answer : M → Multiset R) (leader : G → ι) {members : Finset ι} {t : T}
    (read : ∀ i ∈ members, topic (group i) = t) :
    ∑ i ∈ members, answers answer (led group topic messages leader i) =
      (members.filter fun i => leader (group i) = i).card • answers answer (messages t) := by
  have each : ∀ i ∈ members, answers answer (led group topic messages leader i) =
      if leader (group i) = i then answers answer (messages t) else 0 := by
    intro i member
    rw [led, read i member]
    split
    · rfl
    · exact map_zero _
  rw [Finset.sum_congr rfl each, ← Finset.sum_filter, Finset.sum_const]

/-! ## Each message once -/

section Once

variable [DecidableEq T] {answer : M → Multiset R} {members : Finset ι} {t : T}

theorem eq_one_of_nsmul_eq {receipts : Multiset R} (some : receipts ≠ 0) {n : Nat}
    (same : n • receipts = receipts) : n = 1 := by
  have cards := congrArg Multiset.card same
  rw [Multiset.card_nsmul] at cards
  exact Nat.eq_of_mul_eq_mul_right (Multiset.card_pos.mpr some) (cards.trans (Nat.one_mul _).symm)

variable (group topic answer members t) in
/-- However the messages are shared out, the members answer those of the topic once. -/
def AnswersOnce : Prop :=
  ∀ messages taken, SharesOut group topic messages taken →
    ∑ i ∈ members, answers answer (taken i) = answers answer (messages t)

/-- Of the leaders one is a member, whoever the leaders are. -/
theorem AnswersOnce.leader (once : AnswersOnce group topic answer members t)
    (read : ∀ i ∈ members, topic (group i) = t) {m : M} (answered : answer m ≠ 0) {leader : G → ι}
    (leads : Leads group leader) :
    ∃ i ∈ members, leader (group i) = i ∧ ∀ j ∈ members, leader (group j) = j → j = i := by
  have single := once (fun t' => if t' = t then {m} else 0) _ (sharesOut_led leads)
  rw [sum_answers_led answer leader read, if_pos rfl, answers_eq, Multiset.map_singleton,
    Multiset.sum_singleton] at single
  obtain ⟨i, alone⟩ := Finset.card_eq_one.mp (eq_one_of_nsmul_eq answered single)
  obtain ⟨member, led⟩ := Finset.mem_filter.mp (alone ▸ Finset.mem_singleton_self i)
  refine ⟨i, member, led, fun j member' led' => ?_⟩
  exact Finset.mem_singleton.mp (alone ▸ Finset.mem_filter.mpr ⟨member', led'⟩)

/-- Members of two groups would both answer, if they led. -/
theorem AnswersOnce.group_eq (once : AnswersOnce group topic answer members t)
    (read : ∀ i ∈ members, topic (group i) = t) {m : M} (answered : answer m ≠ 0) {i j : ι}
    (member : i ∈ members) (member' : j ∈ members) : group j = group i := by
  by_contra other
  have : Nonempty ι := ⟨i⟩
  obtain ⟨leader, leads⟩ := exists_leads group
  obtain ⟨k, -, -, unique⟩ := once.leader read answered ((leads.promote i).promote j)
  have first : i = k := unique i member (by rw [update_of_ne (Ne.symm other), update_self])
  have second : j = k := unique j member' (by rw [update_self])
  exact other (congrArg group (second.trans first.symm))

/-- Where somebody else in the group of the members led, nobody of them would answer. -/
theorem AnswersOnce.mem_of_group_eq (once : AnswersOnce group topic answer members t)
    (read : ∀ i ∈ members, topic (group i) = t) {m : M} (answered : answer m ≠ 0) {i j : ι}
    (member : i ∈ members) (same : group j = group i) : j ∈ members := by
  have : Nonempty ι := ⟨i⟩
  obtain ⟨leader, leads⟩ := exists_leads group
  obtain ⟨k, member', led, -⟩ := once.leader read answered (leads.promote j)
  rw [once.group_eq read answered member member', ← same, update_self] at led
  exact led ▸ member'

theorem AnswersOnce.nonempty (once : AnswersOnce group topic answer members t)
    (read : ∀ i ∈ members, topic (group i) = t) {m : M} (answered : answer m ≠ 0) : members.Nonempty := by
  cases isEmpty_or_nonempty ι with
  | inl nobody =>
    have single := once (fun _ => {m}) 0 fun i => nobody.elim i
    rw [Finset.eq_empty_of_isEmpty members, Finset.sum_empty, answers_eq, Multiset.map_singleton,
      Multiset.sum_singleton] at single
    exact absurd single.symm answered
  | inr somebody =>
    obtain ⟨leader, leads⟩ := exists_leads group
    obtain ⟨i, member, -⟩ := once.leader read answered leads
    exact ⟨i, member⟩

/-- Some members answer each message of their topic once exactly if they are one of its groups. -/
theorem answersOnce_iff (read : ∀ i ∈ members, topic (group i) = t) (answered : ∃ m, answer m ≠ 0) :
    AnswersOnce group topic answer members t ↔ ∃ i ∈ members, ∀ j, j ∈ members ↔ group j = group i := by
  constructor
  · intro once
    obtain ⟨m, answered⟩ := answered
    obtain ⟨i, member⟩ := once.nonempty read answered
    exact ⟨i, member, fun j => ⟨once.group_eq read answered member, once.mem_of_group_eq read answered member⟩⟩
  · rintro ⟨i, member, isGroup⟩ messages taken shares
    rw [sum_answers_of_group shares answer isGroup, read i member]

end Once

end ConsumerGroups
