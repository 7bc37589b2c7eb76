import Mathlib.Computability.RegularExpressions

/-!
# Searching and splitting sequences

An unanchored search with a regular expression accepts a sequence as soon as some
part of it matches.  The semantics of the expressions is Mathlib's; this module adds
the search, the expressions for literals and character classes, what splitting at a
separator gives, and the text that bytes stand for.
-/

namespace TextSearch

open RegularExpression

variable {α : Type}

def literal : List α → RegularExpression α
  | [] => 1
  | a :: word => char a * literal word

def oneOf : List α → RegularExpression α
  | [] => 0
  | a :: letters => char a + oneOf letters

theorem matches_literal (word : List α) : (literal word).matches' = {word} := by
  induction word with
  | nil => rfl
  | cons a word inductionHypothesis =>
    rw [literal, matches'_mul, matches'_char, inductionHypothesis]
    exact Set.image2_singleton

theorem mem_matches_oneOf {letters word : List α} :
    word ∈ (oneOf letters).matches' ↔ ∃ a ∈ letters, word = [a] := by
  induction letters with
  | nil => simp [oneOf, Language.notMem_zero]
  | cons a letters inductionHypothesis =>
    rw [oneOf, matches'_add, Language.mem_add, matches'_char, inductionHypothesis]
    simp only [List.mem_cons, exists_eq_or_imp]
    exact Iff.rfl

/-- A power of a character class is the words of that length over it. -/
theorem mem_matches_oneOf_pow {letters word : List α} {n : Nat} :
    word ∈ (oneOf letters ^ n).matches' ↔ word.length = n ∧ ∀ a ∈ word, a ∈ letters := by
  rw [matches'_pow]
  induction n generalizing word with
  | zero =>
    rw [pow_zero, Language.mem_one, List.length_eq_zero_iff]
    refine ⟨fun empty => ⟨empty, by simp [empty]⟩, And.left⟩
  | succ n inductionHypothesis =>
    rw [pow_succ', Language.mem_mul]
    constructor
    · intro split
      obtain ⟨first, single, rest, power, rfl⟩ := split
      obtain ⟨a, member, rfl⟩ := mem_matches_oneOf.mp single
      obtain ⟨length, inside⟩ := inductionHypothesis.mp power
      exact ⟨by simp [length], by simpa using ⟨member, inside⟩⟩
    · intro spelled
      obtain ⟨length, inside⟩ := spelled
      cases word with
      | nil => cases length
      | cons a word =>
        refine ⟨[a], mem_matches_oneOf.mpr ⟨a, inside a List.mem_cons_self, rfl⟩, word, ?_, rfl⟩
        refine inductionHypothesis.mpr ⟨by simpa using length, fun b member => ?_⟩
        exact inside b (List.mem_cons_of_mem a member)

/-- Whether some part of `text` matches. -/
def isMatch [DecidableEq α] (r : RegularExpression α) (text : List α) : Bool :=
  text.tails.any fun rest => rest.inits.any r.rmatch

theorem isMatch_iff [DecidableEq α] (r : RegularExpression α) (text : List α) :
    isMatch r text = true ↔
      ∃ before word after, text = before ++ word ++ after ∧ word ∈ r.matches' := by
  simp only [isMatch, List.any_eq_true, List.mem_tails, List.mem_inits, rmatch_iff_matches']
  constructor
  · rintro ⟨rest, ⟨before, rfl⟩, word, ⟨after, rfl⟩, matched⟩
    exact ⟨before, word, after, by rw [List.append_assoc], matched⟩
  · rintro ⟨before, word, after, rfl, matched⟩
    exact ⟨word ++ after, ⟨before, by rw [List.append_assoc]⟩, word, ⟨after, rfl⟩, matched⟩

theorem isMatch_literal_add_iff [DecidableEq α] (word text : List α) (r : RegularExpression α) :
    isMatch (literal word + r) text = true ↔ word <:+: text ∨ ∃ part ∈ r.matches', part <:+: text := by
  rw [isMatch_iff, matches'_add, matches_literal]
  constructor
  · rintro ⟨before, part, after, rfl, isWord | matched⟩
    · cases isWord
      exact .inl ⟨before, after, rfl⟩
    · exact .inr ⟨part, matched, before, after, rfl⟩
  · rintro (⟨before, after, rfl⟩ | ⟨part, matched, before, after, rfl⟩)
    · exact ⟨before, word, after, rfl, .inl rfl⟩
    · exact ⟨before, part, after, rfl, .inr matched⟩

theorem isMatch_literal_add [DecidableEq α] (word before after : List α) (r : RegularExpression α) :
    isMatch (literal word + r) (before ++ word ++ after) = true :=
  (isMatch_literal_add_iff _ _ _).mpr (.inl ⟨before, after, rfl⟩)

/-! ## Segments -/

theorem splitOn_second_eq_none_iff [BEq α] [LawfulBEq α] {separator : α} {text : List α} :
    (text.splitOn separator)[1]? = none ↔ separator ∉ text := by
  constructor
  · intro single present
    -- Both sides of a separator contribute at least one segment.
    obtain ⟨before, after, rfl⟩ := List.append_of_mem present
    rw [List.splitOn_append_cons_self] at single
    have nonempty := List.length_pos_iff.mpr (List.splitOn_ne_nil separator before)
    have more := List.length_pos_iff.mpr (List.splitOn_ne_nil separator after)
    rw [List.getElem?_eq_none_iff, List.length_append] at single
    omega
  · intro absent
    rw [List.splitOn_eq_singleton absent]
    rfl

theorem splitOn_second [BEq α] [LawfulBEq α] {separator : α} {before after : List α}
    (left : separator ∉ before) :
    ((before ++ separator :: after).splitOn separator)[1]? = (after.splitOn separator)[0]? := by
  rw [List.splitOn_append_cons_self_of_not_mem left, List.getElem?_cons_succ]

/-- What stands before the first separator, and what stands after it. -/
def cut [BEq α] (separator : α) (text : List α) : List α × List α :=
  (text.takeWhile (· != separator), (text.dropWhile (· != separator)).tail)

theorem cut_append_cons [BEq α] [LawfulBEq α] {separator : α} {before : List α}
    (absent : separator ∉ before) (after : List α) :
    cut separator (before ++ separator :: after) = (before, after) := by
  have passed : ∀ a ∈ before, (a != separator) = true := by
    intro a member
    rw [bne_iff_ne]
    intro same
    exact absent (same ▸ member)
  rw [cut, List.takeWhile_append_of_pos passed, List.dropWhile_append_of_pos passed,
    List.takeWhile_cons_of_neg (by simp), List.dropWhile_cons_of_neg (by simp), List.append_nil,
    List.tail_cons]

/-! ## Strings as bytes -/

theorem fromUTF8?_toUTF8 (text : String) : String.fromUTF8? text.toUTF8 = some text := by
  rw [String.fromUTF8?, String.toUTF8_eq_toByteArray]
  exact dif_pos text.isValidUTF8

theorem toList_loop (bytes : ByteArray) (i : Nat) (read : List UInt8) :
    ByteArray.toList.loop bytes i read = read.reverse ++ bytes.data.toList.drop i := by
  fun_induction ByteArray.toList.loop bytes i read with
  | case1 i read inside inductionHypothesis =>
    have bound : i < bytes.data.toList.length := by simpa using inside
    have current : bytes.get! i = bytes.data.toList[i] := by
      rw [ByteArray.get!]
      exact getElem!_pos bytes.data i inside
    rw [inductionHypothesis, List.reverse_cons, List.append_assoc, List.singleton_append, current,
      List.drop_eq_getElem_cons bound]
  | case2 i read outside =>
    rw [List.drop_of_length_le (by simpa using outside), List.append_nil]

theorem toList_eq_data (bytes : ByteArray) : bytes.toList = bytes.data.toList :=
  toList_loop bytes 0 []

/-- The text of bytes that are all ASCII. -/
def asciiText (bytes : ByteArray) : List Char := bytes.toList.map fun b => Char.ofNat b.toNat

theorem utf8EncodeChar_of_ascii {b : UInt8} (ascii : b < 128) :
    String.utf8EncodeChar (Char.ofNat b.toNat) = [b] := by
  have small : b.toNat < 128 := UInt8.lt_iff_toNat_lt.mp ascii
  have value : (Char.ofNat b.toNat).val.toNat = b.toNat := by
    have valid : b.toNat.isValidChar := .inl (by omega)
    rw [Char.ofNat, dif_pos valid]
    rfl
  simp [String.utf8EncodeChar, value]
  omega

theorem fromUTF8?_of_ascii {bytes : ByteArray} (ascii : ∀ b ∈ bytes.toList, b < 128) :
    String.fromUTF8? bytes = some (String.ofList (asciiText bytes)) := by
  have encoded : (String.ofList (asciiText bytes)).toUTF8 = bytes := by
    rw [String.toUTF8_eq_toByteArray, String.toByteArray_ofList, List.utf8Encode, asciiText,
      List.flatMap_map]
    have each : bytes.toList.flatMap (fun b => String.utf8EncodeChar (Char.ofNat b.toNat)) =
        bytes.toList := by
      rw [List.flatMap_congr fun b member => utf8EncodeChar_of_ascii (ascii b member),
        List.flatMap_singleton']
    rw [each, toList_eq_data]
    exact ByteArray.ext (Array.ext' (List.toList_data_toByteArray))
  rw [← fromUTF8?_toUTF8, encoded]

end TextSearch
