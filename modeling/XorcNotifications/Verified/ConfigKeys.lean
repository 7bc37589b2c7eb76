import XorcNotifications.Verified.ConfigTopic

/-!
# Which keys are taken for those of applications

The expression for the keys is meant as the word `application`, a bar and a UUID.  With
the bar as an alternation and without anchors it accepts every text that contains the word or
a UUID, and so the closure is exact on a key exactly if the two languages agree on it.
-/

namespace XorcNotifications

open RequestConsumer TextSearch

namespace ConfigKey

/-- `n` characters out of `[A-Z0-9]`. -/
def Block (n : Nat) (text : List Char) : Prop :=
  text.length = n ∧ ∀ c ∈ text, c ∈ "ABCDEFGHIJKLMNOPQRSTUVWXYZ0123456789".toList

def IsUuid (text : List Char) : Prop :=
  ∃ a b c d e, text = a ++ '-' :: (b ++ '-' :: (c ++ '-' :: (d ++ '-' :: e))) ∧
    Block 8 a ∧ Block 4 b ∧ Block 4 c ∧ Block 4 d ∧ Block 12 e

/-- The key is the word, a bar and this UUID. -/
def OfApplication (key : String) (uuid : List Char) : Prop :=
  IsUuid uuid ∧ key = "application|" ++ String.ofList uuid

/-- What is done with the configuration of the application `id`: it is passed on, or skipped
    for its type. -/
def treat (pb : Protobuf) (id : String) (payload : Option Bytes) :
    Option (String × Option Application) :=
  match payload.bind pb.parseRequestWrapper with
  | some decoder =>
    if decoder.getHeader.getFieldType = "application.Application" then
      some (id, payload.bind pb.parseApplication)
    else none
  | none => some (id, none)

/-- The key of an application is treated under its UUID, every other key is ignored. -/
def RecognisedExactly (key : String) : Prop :=
  ∀ (pb : Protobuf) (payload : Option Bytes),
    (∀ uuid, OfApplication key uuid →
      configCall pb ⟨some key.toUTF8, payload⟩ = .ok (treat pb (String.ofList uuid) payload)) ∧
    ((¬ ∃ uuid, OfApplication key uuid) → configCall pb ⟨some key.toUTF8, payload⟩ = .ok none)

theorem mem_block_iff {n : Nat} {text : List Char} :
    text ∈ (upperOrDigit ^ n).matches' ↔ Block n text :=
  mem_matches_oneOf_pow

theorem mem_hyphen_block_iff {r : RegularExpression Char} {n : Nat} {text : List Char} :
    text ∈ (r * .char '-' * upperOrDigit ^ n).matches' ↔
      ∃ before part, before ∈ r.matches' ∧ Block n part ∧ text = before ++ '-' :: part := by
  rw [RegularExpression.matches'_mul, RegularExpression.matches'_mul, Language.mem_mul]
  simp only [Language.mem_mul, mem_block_iff]
  constructor
  · rintro ⟨_, ⟨before, matched, _, rfl, rfl⟩, part, block, rfl⟩
    exact ⟨before, part, matched, block, by simp⟩
  · rintro ⟨before, part, matched, block, rfl⟩
    exact ⟨_, ⟨before, matched, ['-'], rfl, rfl⟩, part, block, by simp⟩

theorem mem_upperUuid_iff {text : List Char} : text ∈ upperUuid.matches' ↔ IsUuid text := by
  -- The expression groups to the left, and the blocks are written to the right.
  simp only [upperUuid, mem_hyphen_block_iff, mem_block_iff]
  constructor
  · rintro ⟨_, e, ⟨_, d, ⟨_, c, ⟨a, b, first, second, rfl⟩, third, rfl⟩, fourth, rfl⟩, fifth, rfl⟩
    exact ⟨a, b, c, d, e, by simp, first, second, third, fourth, fifth⟩
  · rintro ⟨a, b, c, d, e, rfl, first, second, third, fourth, fifth⟩
    exact ⟨_, e, ⟨_, d, ⟨_, c, ⟨a, b, first, second, rfl⟩, third, rfl⟩, fourth, rfl⟩, fifth, by simp⟩

theorem isMatch_appKeyRe_iff (key : List Char) :
    isMatch appKeyRe key = true ↔
      "application".toList <:+: key ∨ ∃ uuid, IsUuid uuid ∧ uuid <:+: key := by
  rw [appKeyRe, isMatch_literal_add_iff]
  simp only [mem_upperUuid_iff]

theorem bar_not_mem_block {n : Nat} {text : List Char} (block : Block n text) : '|' ∉ text :=
  fun member => absurd (block.2 '|' member) (by decide)

theorem bar_not_mem {uuid : List Char} (isUuid : IsUuid uuid) : '|' ∉ uuid := by
  obtain ⟨a, b, c, d, e, rfl, first, second, third, fourth, fifth⟩ := isUuid
  simp [bar_not_mem_block first, bar_not_mem_block second, bar_not_mem_block third,
    bar_not_mem_block fourth, bar_not_mem_block fifth]

variable (pb : Protobuf) {key : String}

theorem configCall_ofApplication {uuid : List Char} (isKey : OfApplication key uuid)
    (payload : Option Bytes) :
    configCall pb ⟨some key.toUTF8, payload⟩ = .ok (treat pb (String.ofList uuid) payload) := by
  obtain ⟨isUuid, rfl⟩ := isKey
  have named : namedTenant (String.ofList uuid) = String.ofList uuid :=
    namedTenant_of_not_mem (by rw [String.toList_ofList]; exact bar_not_mem isUuid)
  have made := configCall_configKey pb (String.ofList uuid) payload
  rw [configKey, named] at made
  rw [made, treat]
  cases payload.bind pb.parseRequestWrapper with
  | none => rfl
  | some decoder =>
    by_cases typed : decoder.getHeader.getFieldType = "application.Application" <;> simp [typed]

theorem configCall_of_not_match (unmatched : isMatch appKeyRe key.toList = false)
    (payload : Option Bytes) : configCall pb ⟨some key.toUTF8, payload⟩ = .ok none := by
  have decoded : (some key.toUTF8).bind String.fromUTF8? = some key := fromUTF8?_toUTF8 key
  simp only [configCall, decoded, unmatched, Bool.false_eq_true, if_false]

/-- A key that is accepted is never ignored: without a payload there is a null
    configuration, or a panic. -/
theorem configCall_of_match (matched : isMatch appKeyRe key.toList = true) :
    configCall pb ⟨some key.toUTF8, none⟩ ≠ .ok none := by
  have decoded : (some key.toUTF8).bind String.fromUTF8? = some key := fromUTF8?_toUTF8 key
  simp only [configCall, decoded, matched, if_true]
  intro ignored
  cases second : (key.toList.splitOn '|')[1]? with
  | none =>
    rw [second] at ignored
    cases ignored
  | some segment =>
    rw [second] at ignored
    cases ignored

end ConfigKey

open ConfigKey

/-- Keys are recognised exactly unless the word or a UUID stands in one that is not the key
    of an application. -/
theorem keys_recognised_iff (key : String) :
    RecognisedExactly key ↔
      (∃ uuid, OfApplication key uuid) ∨
        (¬ "application".toList <:+: key.toList ∧ ∀ uuid, IsUuid uuid → ¬ uuid <:+: key.toList) := by
  constructor
  · intro recognised
    by_cases isKey : ∃ uuid, OfApplication key uuid
    · exact .inl isKey
    · have ignored := (recognised configPb none).2 isKey
      have unmatched : ¬ isMatch appKeyRe key.toList = true :=
        fun matched => configCall_of_match configPb matched ignored
      rw [isMatch_appKeyRe_iff, not_or] at unmatched
      obtain ⟨noWord, noUuid⟩ := unmatched
      exact .inr ⟨noWord, fun uuid isUuid inside => noUuid ⟨uuid, isUuid, inside⟩⟩
  · rintro (isKey | ⟨noWord, noUuid⟩) pb payload
    · exact ⟨fun uuid ofUuid => configCall_ofApplication pb ofUuid payload,
        fun other => absurd isKey other⟩
    · have unmatched : isMatch appKeyRe key.toList = false := by
        rw [← Bool.not_eq_true, isMatch_appKeyRe_iff]
        rintro (word | ⟨uuid, isUuid, inside⟩)
        · exact noWord word
        · exact noUuid uuid isUuid inside
      exact ⟨fun uuid ofUuid => configCall_ofApplication pb ofUuid payload,
        fun _ => configCall_of_not_match pb unmatched payload⟩

/-- Another kind of record, whose key has the word in its second segment. -/
theorem reportKey_taken :
    ¬ RecognisedExactly "report|application" ∧
      configCall configPb ⟨some "report|application".toUTF8, none⟩ = .ok (some ("application", none)) := by
  have decoded : (some "report|application".toUTF8).bind String.fromUTF8? = some "report|application" :=
    fromUTF8?_toUTF8 _
  have matched : isMatch appKeyRe "report|application".toList = true :=
    isMatch_appKeyRe "report|".toList []
  have segment : ("report|application".toList.splitOn '|')[1]? = some "application".toList := by decide
  have taken : configCall configPb ⟨some "report|application".toUTF8, none⟩ =
      .ok (some ("application", none)) := by
    simp only [configCall, decoded, matched, if_true, segment]
    rfl
  refine ⟨fun recognised => ?_, taken⟩
  have other : ¬ ∃ uuid, OfApplication "report|application" uuid := by
    rintro ⟨uuid, -, isKey⟩
    have letters := congrArg String.toList isKey
    rw [toList_configKey] at letters
    have firstLetter : 'r' = 'a' := (List.cons.inj letters).1
    exact absurd firstLetter (by decide)
  rw [(recognised configPb none).2 other] at taken
  cases taken

end XorcNotifications
