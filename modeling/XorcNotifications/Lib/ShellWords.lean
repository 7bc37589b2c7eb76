import Mathlib.Data.List.Chain

/-!
# The words of a shell line

How a POSIX shell reads a line as the words of one command: blanks separate the words,
backslashes and quotes quote, and a line continuation joins two lines.  Where an expansion
begins the line does not say which words there are, and an operator ends the command, so
neither is read.  Tildes and patterns are characters of their words.

A reading drops at least one character for every double quote of the line.  A line whose
words leave no more than that to drop is read in one way only, and from this follows
which texts come back when they are put between double quotes.
-/

namespace ShellWords

/-! ## Reading -/

def isBlank (c : Char) : Bool := c = ' ' || c = '\t'

/-- Dollar and backquote, which begin an expansion where they are not quoted, and between
    double quotes as well.  A dollar before a character that names nothing has no specified
    meaning, so it counts too. -/
def beginsExpansion (c : Char) : Bool := c = '$' || c = '\x60'

def isOperator (c : Char) : Bool := c ∈ ['|', '&', ';', '<', '>', '(', ')', '\n']

/-- Where in the line the reading is: outside of quotes, with a word begun or not; after a
    backslash there; between double quotes; after a backslash between them; between single
    quotes, which are `\x27`; in a comment. -/
inductive Mode where
  | bare (begun : Bool)
  | escape (begun : Bool)
  | double
  | doubleEscape
  | single
  | comment
deriving DecidableEq

/-- What a character adds to the words: characters of the word that is being read, or its
    end, or nothing. -/
inductive Piece where
  | nothing
  | chars (text : List Char)
  | wordEnd

/-- What the reading does with one character.  It stops where an expansion begins and at an
    operator. -/
def step : Mode → Char → Option (Mode × Piece)
  | .bare begun, c =>
    if c = '"' then some (.double, .nothing)
    else if c = '\x27' then some (.single, .nothing)
    else if c = '\\' then some (.escape begun, .nothing)
    else if isBlank c then some (.bare false, if begun then .wordEnd else .nothing)
    else if c = '#' ∧ begun = false then some (.comment, .nothing)
    else if beginsExpansion c ∨ isOperator c then none
    else some (.bare true, .chars [c])
  -- A backslash before a newline joins two lines.
  | .escape begun, c => if c = '\n' then some (.bare begun, .nothing) else some (.bare true, .chars [c])
  | .double, c =>
    if c = '"' then some (.bare true, .nothing)
    else if c = '\\' then some (.doubleEscape, .nothing)
    else if beginsExpansion c then none
    else some (.double, .chars [c])
  | .doubleEscape, c =>
    if c = '\n' then some (.double, .nothing)
    else if beginsExpansion c ∨ c = '"' ∨ c = '\\' then some (.double, .chars [c])
    -- Before any other character the backslash stands for itself.
    else some (.double, .chars ['\\', c])
  | .single, c => if c = '\x27' then some (.bare true, .nothing) else some (.single, .chars [c])
  | .comment, c => if c = '\n' then none else some (.comment, .nothing)

/-- The end of the line.  An open quote is never closed there. -/
def finish : Mode → Option (List (List Char))
  | .bare begun => some (if begun then [[]] else [])
  | .comment => some []
  | .escape _ | .double | .doubleEscape | .single => none

/-- The words with the piece in front of them. -/
def Piece.before : Piece → List (List Char) → Option (List (List Char))
  | .nothing, words => some words
  | .chars text, word :: words => some ((text ++ word) :: words)
  | .chars _, [] => none
  | .wordEnd, words => some ([] :: words)

/-- The rest of the word that is being read, if there is one, and the words after it. -/
def read : Mode → List Char → Option (List (List Char))
  | mode, [] => finish mode
  | mode, c :: text => (step mode c).bind fun taken => (read taken.1 text).bind taken.2.before

/-- The words of a line that holds one command. -/
def words (line : List Char) : Option (List (List Char)) := read (.bare false) line

example : words ("a \"b \\\" c\" d\\ e".toList) = some ["a".toList, "b \" c".toList, "d e".toList] := by
  decide

/-! ## What a reading drops -/

/-- The characters of the words, and one for the end of each. -/
def size (words : List (List Char)) : Nat := words.flatten.length + words.length

def Piece.text : Piece → List Char
  | .chars text => text
  | .nothing | .wordEnd => []

def Piece.size : Piece → Nat
  | .nothing => 0
  | .chars text => text.length
  | .wordEnd => 1

theorem Piece.flatten_before {piece : Piece} {words all : List (List Char)}
    (before : piece.before words = some all) : all.flatten = piece.text ++ words.flatten := by
  cases piece with
  | nothing => cases before; rfl
  | wordEnd => cases before; rfl
  | chars text =>
    cases words with
    | nil => cases before
    | cons word words =>
      cases before
      rw [List.flatten_cons, List.flatten_cons, List.append_assoc]
      rfl

theorem Piece.size_before {piece : Piece} {words all : List (List Char)}
    (before : piece.before words = some all) : ShellWords.size all = piece.size + ShellWords.size words := by
  rw [ShellWords.size, ShellWords.size, flatten_before before, List.length_append]
  cases piece with
  | nothing => cases before; simp [text, size]
  | wordEnd => cases before; simp [text, size]; omega
  | chars text =>
    cases words with
    | nil => cases before
    | cons word words => cases before; simp [Piece.text, size]; omega

theorem read_cons_eq_some {mode : Mode} {c : Char} {text : List Char} {all : List (List Char)}
    (reads : read mode (c :: text) = some all) :
    ∃ next piece words, step mode c = some (next, piece) ∧ read next text = some words ∧
      piece.before words = some all := by
  obtain ⟨taken, stepped, reads⟩ := Option.bind_eq_some_iff.mp reads
  obtain ⟨words, rest, before⟩ := Option.bind_eq_some_iff.mp reads
  exact ⟨taken.1, taken.2, words, stepped, rest, before⟩

/-- A character in front of what has been read. -/
def push (c : Char) (reading : Option (List (List Char))) : Option (List (List Char)) :=
  reading.bind (Piece.chars [c]).before

theorem bind_nothing (reading : Option (List (List Char))) :
    reading.bind Piece.nothing.before = reading := by
  cases reading <;> rfl

theorem bind_chars_cons (c d : Char) (reading : Option (List (List Char))) :
    reading.bind (Piece.chars [c, d]).before = push c (push d reading) := by
  cases reading with
  | none => rfl
  | some words => cases words <;> rfl

theorem push_eq_some_iff {c d : Char} {reading : Option (List (List Char))} {word : List Char}
    {words : List (List Char)} :
    push c reading = some ((d :: word) :: words) ↔ c = d ∧ reading = some (word :: words) := by
  cases reading with
  | none => simp [push]
  | some read =>
    cases read with
    | nil => simp [push, Piece.before]
    | cons word' words' => simp [push, Piece.before, and_assoc]

theorem bind_wordEnd_eq_some_iff {reading : Option (List (List Char))} {words : List (List Char)} :
    reading.bind Piece.wordEnd.before = some ([] :: words) ↔ reading = some words := by
  cases reading <;> simp [Piece.before]

/-- No step makes up a single quote. -/
theorem count_text_le {mode next : Mode} {c : Char} {piece : Piece}
    (stepped : step mode c = some (next, piece)) : piece.text.count '\x27' ≤ [c].count '\x27' := by
  cases mode <;> simp only [step] at stepped <;> split_ifs at stepped <;> cases stepped <;>
    simp [Piece.text]

theorem finish_flatten {mode : Mode} {all : List (List Char)} (ends : finish mode = some all) :
    all.flatten = [] := by
  cases mode with
  | bare begun => cases begun <;> cases ends <;> rfl
  | comment =>
    cases ends
    rfl
  | _ => cases ends

theorem count_single_le {mode : Mode} {text : List Char} {all : List (List Char)}
    (reads : read mode text = some all) : all.flatten.count '\x27' ≤ text.count '\x27' := by
  induction text generalizing mode all with
  | nil => rw [finish_flatten reads]
  | cons c text inductionHypothesis =>
    obtain ⟨next, piece, words, stepped, rest, before⟩ := read_cons_eq_some reads
    have here := count_text_le stepped
    have later := inductionHypothesis rest
    rw [Piece.flatten_before before, List.count_append, List.count_cons]
    rw [List.count_singleton] at here
    omega

/-- The character that has been taken and that the words may still get. -/
def Mode.pending : Mode → Nat
  | .escape _ | .doubleEscape => 1
  | .bare _ | .double | .single | .comment => 0

/-- A step outside of single quotes adds no more than it takes, and less if it takes a
    double quote, unless it drops a single quote. -/
theorem step_size_le {mode next : Mode} {c : Char} {piece : Piece} (outside : mode ≠ .single)
    (stepped : step mode c = some (next, piece)) :
    (next = .single ∧ c = '\x27' ∧ piece.text = []) ∨
      (next ≠ .single ∧ piece.size + [c].count '"' + next.pending ≤ 1 + mode.pending) := by
  cases mode <;> simp only [step] at stepped <;> split_ifs at stepped <;> cases stepped <;>
    simp_all [Piece.text, Piece.size, Mode.pending, List.count_singleton] <;> split <;> omega

theorem finish_size_le {mode : Mode} {all : List (List Char)} (ends : finish mode = some all) :
    size all ≤ 1 := by
  cases mode with
  | bare begun => cases begun <;> cases ends <;> simp [size]
  | comment => cases ends; simp [size]
  | _ => cases ends

/-- A reading that drops no single quote drops a character for every double quote. -/
theorem size_le {mode : Mode} {text : List Char} {all : List (List Char)} (outside : mode ≠ .single)
    (reads : read mode text = some all) (kept : all.flatten.count '\x27' = text.count '\x27') :
    size all + text.count '"' ≤ text.length + 1 + mode.pending := by
  induction text generalizing mode all with
  | nil =>
    have ends := finish_size_le reads
    rw [List.count_nil, List.length_nil]
    omega
  | cons c text inductionHypothesis =>
    obtain ⟨next, piece, words, stepped, rest, before⟩ := read_cons_eq_some reads
    have here := count_text_le stepped
    have later := count_single_le rest
    rw [Piece.flatten_before before, List.count_append, List.count_cons] at kept
    rw [List.count_singleton] at here
    rcases step_size_le outside stepped with ⟨-, isSingle, noText⟩ | ⟨outside', small⟩
    · -- The quote that is dropped here is not made up for later.
      rw [isSingle, noText] at kept
      simp at kept
      omega
    · have bound := inductionHypothesis outside' rest (by omega)
      rw [Piece.size_before before, List.count_cons, List.length_cons]
      rw [List.count_singleton] at small
      omega

/-! ## Lines that leave nothing more to drop -/

/-- The words keep all single quotes of the text, and of the rest what a reading can keep. -/
structure Fills (words : List (List Char)) (text : List Char) : Prop where
  single : words.flatten.count '\x27' = text.count '\x27'
  room : text.length + 1 ≤ size words + text.count '"'

/-- There is no room for one more character. -/
theorem Fills.not_read {word : List Char} {words : List (List Char)} {text : List Char}
    (fills : Fills (word :: words) text) (mode : Mode) (outside : mode ≠ .single)
    (settled : mode.pending = 0) {more : List Char} (longer : more ≠ [])
    (plain : more.count '\x27' = 0) : read mode text ≠ some ((more ++ word) :: words) := by
  intro reads
  have kept : ((more ++ word) :: words).flatten.count '\x27' = text.count '\x27' := by
    rw [← fills.single, List.flatten_cons, List.append_assoc, List.count_append, plain, Nat.zero_add,
      ← List.flatten_cons]
  have room := fills.room
  have longer := List.length_pos_iff.mpr longer
  have bound := size_le outside reads kept
  simp only [size, List.flatten_cons, List.length_append, List.length_cons] at room bound
  omega

/-! ## Between double quotes -/

/-- A backslash before every double quote. -/
def escapeQuotes (text : List Char) : List Char :=
  text.flatMap fun c => if c = '"' then ['\\', '"'] else [c]

/-- After a backslash between double quotes, these are not themselves. -/
def misread (c : Char) : Bool := c = '\\' || c = '"' || c = '\n'

/-- Texts that come back from between double quotes once their double quotes are escaped: no
    expansion begins in them, and no backslash stands at the end or before a backslash, a
    double quote or a newline. -/
def Quotable (text : List Char) : Prop :=
  (∀ c ∈ text, beginsExpansion c = false) ∧
    (text ++ ['"']).IsChain fun a b => a = '\\' → misread b = false

instance (text : List Char) : Decidable (Quotable text) :=
  decidable_of_iff
    ((text.all fun c => !beginsExpansion c) = true ∧
      (text ++ ['"']).IsChain fun a b => a = '\\' → misread b = false) <| by
    simp [Quotable]

theorem quotable_nil : Quotable [] := ⟨nofun, List.isChain_singleton _⟩

theorem quotable_cons_iff {c : Char} {text : List Char} (ordinary : c ≠ '\\') :
    Quotable (c :: text) ↔ beginsExpansion c = false ∧ Quotable text := by
  simp [Quotable, List.isChain_cons, ordinary, and_assoc]

theorem not_quotable_of_misread {c : Char} {text : List Char} (bad : misread c = true) :
    ¬ Quotable ('\\' :: c :: text) := by
  intro quotable
  have follows := List.isChain_cons_cons.mp quotable.2
  rw [follows.1 rfl] at bad
  cases bad

theorem quotable_backslash_iff {text : List Char} :
    Quotable ('\\' :: text) ↔ (∀ c ∈ (text ++ ['"']).head?, misread c = false) ∧ Quotable text := by
  simp only [Quotable, List.cons_append, List.isChain_cons, List.forall_mem_cons, forall_const]
  have escape : beginsExpansion '\\' = false := by decide
  rw [escape]
  tauto

section Double

variable (text : List Char)

@[simp] theorem read_double_quote : read .double ('"' :: text) = read (.bare true) text :=
  bind_nothing _

@[simp] theorem read_double_backslash : read .double ('\\' :: text) = read .doubleEscape text :=
  bind_nothing _

theorem read_double_expansion {c : Char} (begins : beginsExpansion c = true) :
    read .double (c :: text) = none := by
  have notQuote : c ≠ '"' := by rintro rfl; cases begins
  have notBackslash : c ≠ '\\' := by rintro rfl; cases begins
  simp [read, step, notQuote, notBackslash, begins]

theorem read_double_char {c : Char} (notQuote : c ≠ '"') (notBackslash : c ≠ '\\')
    (ordinary : beginsExpansion c = false) : read .double (c :: text) = push c (read .double text) := by
  simp [read, step, notQuote, notBackslash, ordinary, push]

@[simp] theorem read_doubleEscape_newline : read .doubleEscape ('\n' :: text) = read .double text :=
  bind_nothing _

theorem read_doubleEscape_special {c : Char} (special : beginsExpansion c = true ∨ c = '"' ∨ c = '\\') :
    read .doubleEscape (c :: text) = push c (read .double text) := by
  have notNewline : c ≠ '\n' := by
    rintro rfl
    revert special
    decide
  simp [read, step, notNewline, special, push]

theorem read_doubleEscape_char {c : Char} (plain : misread c = false)
    (ordinary : beginsExpansion c = false) :
    read .doubleEscape (c :: text) = push '\\' (push c (read .double text)) := by
  simp only [misread, Bool.or_eq_false_iff, decide_eq_false_iff_not] at plain
  rw [← bind_chars_cons]
  simp [read, step, plain, ordinary]

/-- The end of a quoted word that is not the last word. -/
theorem read_bare_blank_iff {words : List (List Char)} :
    read (.bare true) (' ' :: text) = some ([] :: words) ↔ ShellWords.words text = some words :=
  bind_wordEnd_eq_some_iff

end Double

theorem not_quotable_last : ¬ Quotable ['\\'] := by
  rw [quotable_backslash_iff]
  simp [misread]

theorem escapeQuotes_quote (text : List Char) :
    escapeQuotes ('"' :: text) = '\\' :: '"' :: escapeQuotes text := rfl

theorem escapeQuotes_char {c : Char} (notQuote : c ≠ '"') (text : List Char) :
    escapeQuotes (c :: text) = c :: escapeQuotes text := by
  rw [escapeQuotes, List.flatMap_cons, if_neg notQuote]
  rfl

theorem length_escapeQuotes (text : List Char) :
    (escapeQuotes text).length = text.length + text.count '"' := by
  induction text with
  | nil => rfl
  | cons c text inductionHypothesis =>
    rw [escapeQuotes] at inductionHypothesis ⊢
    rw [List.flatMap_cons, List.length_append, inductionHypothesis, List.length_cons, List.count_cons]
    split <;> simp_all <;> omega

theorem count_escapeQuotes (text : List Char) {c : Char} (notBackslash : c ≠ '\\') :
    (escapeQuotes text).count c = text.count c := by
  induction text with
  | nil => rfl
  | cons d text inductionHypothesis =>
    rw [escapeQuotes] at inductionHypothesis ⊢
    rw [List.flatMap_cons, List.count_append, inductionHypothesis, List.count_cons, Nat.add_comm]
    split
    next isQuote => simp [isQuote, List.count_cons, notBackslash.symm]
    next => simp [List.count_cons]

theorem Fills.quoted {words : List (List Char)} {rest : List Char} (fills : Fills words rest)
    (text : List Char) : Fills (text :: words) (escapeQuotes text ++ '"' :: ' ' :: rest) where
  single := by
    rw [List.flatten_cons, List.count_append, List.count_append, count_escapeQuotes text (by decide),
      fills.single]
    rfl
  room := by
    have room := fills.room
    have quotes : ('"' :: ' ' :: rest).count '"' = rest.count '"' + 1 := by simp
    rw [List.count_append, count_escapeQuotes text (by decide), List.length_append, length_escapeQuotes,
      quotes]
    simp only [size, List.flatten_cons, List.length_append, List.length_cons] at room ⊢
    omega

section Quoted

variable {words : List (List Char)} {rest : List Char}

/-- One character further between double quotes. -/
theorem read_double_cons_iff {text : List Char} (c : Char)
    (plain : read .double (escapeQuotes text ++ '"' :: ' ' :: rest) = some (text :: words) ↔
      Quotable text ∧ ShellWords.words rest = some words)
    (escaped : read .doubleEscape (escapeQuotes text ++ '"' :: ' ' :: rest) =
        some (('\\' :: text) :: words) ↔
      Quotable ('\\' :: text) ∧ ShellWords.words rest = some words) :
    read .double (escapeQuotes (c :: text) ++ '"' :: ' ' :: rest) = some ((c :: text) :: words) ↔
      Quotable (c :: text) ∧ ShellWords.words rest = some words := by
  by_cases isQuote : c = '"'
  · subst isQuote
    have noExpansion : beginsExpansion '"' = false := rfl
    rw [escapeQuotes_quote, List.cons_append, List.cons_append, read_double_backslash,
      read_doubleEscape_special _ (by simp), push_eq_some_iff, plain, quotable_cons_iff (by decide),
      and_iff_right rfl, and_iff_right noExpansion]
  rw [escapeQuotes_char isQuote, List.cons_append]
  by_cases isBackslash : c = '\\'
  · subst isBackslash
    rw [read_double_backslash, escaped]
  rw [quotable_cons_iff isBackslash]
  cases expansion : beginsExpansion c with
  | true =>
    rw [read_double_expansion _ expansion]
    exact iff_of_false nofun fun holds => nomatch holds.1.1
  | false =>
    rw [read_double_char _ isQuote isBackslash expansion, push_eq_some_iff, plain, and_iff_right rfl,
      and_iff_right rfl]

/-- One character further after a backslash.  Where it is taken with the backslash, there is
    no room in the rest of the line for the character that is missing. -/
theorem read_doubleEscape_cons_iff {text : List Char} (c : Char) (fills : Fills words rest)
    (plain : read .double (escapeQuotes text ++ '"' :: ' ' :: rest) = some (text :: words) ↔
      Quotable text ∧ ShellWords.words rest = some words) :
    read .doubleEscape (escapeQuotes (c :: text) ++ '"' :: ' ' :: rest) =
        some (('\\' :: c :: text) :: words) ↔
      Quotable ('\\' :: c :: text) ∧ ShellWords.words rest = some words := by
  have tail := fills.quoted text
  have misreads : misread c = true → ¬ (Quotable ('\\' :: c :: text) ∧ ShellWords.words rest = some words) :=
    fun bad holds => not_quotable_of_misread bad holds.1
  by_cases isQuote : c = '"'
  · subst isQuote
    -- The backslash that was to escape the quote is taken, and the quote ends the word.
    rw [escapeQuotes_quote, List.cons_append, List.cons_append, read_doubleEscape_special _ (by simp),
      push_eq_some_iff, read_double_quote]
    have ended := tail.not_read (.bare true) nofun rfl (List.cons_ne_nil '"' []) rfl
    exact iff_of_false (fun reads => ended reads.2) (misreads rfl)
  rw [escapeQuotes_char isQuote, List.cons_append]
  by_cases isBackslash : c = '\\'
  · subst isBackslash
    rw [read_doubleEscape_special _ (by simp), push_eq_some_iff]
    have one := tail.not_read .double nofun rfl (List.cons_ne_nil '\\' []) rfl
    exact iff_of_false (fun reads => one reads.2) (misreads rfl)
  by_cases isNewline : c = '\n'
  · subst isNewline
    rw [read_doubleEscape_newline]
    have neither := tail.not_read .double nofun rfl (List.cons_ne_nil '\\' ['\n']) rfl
    exact iff_of_false neither (misreads rfl)
  have kept : misread c = false := by simp [misread, isQuote, isBackslash, isNewline]
  rw [quotable_backslash_iff, quotable_cons_iff isBackslash]
  cases expansion : beginsExpansion c with
  | true =>
    rw [read_doubleEscape_special _ (.inl expansion), push_eq_some_iff]
    exact iff_of_false (fun reads => isBackslash reads.1) fun holds => nomatch holds.1.2.1
  | false =>
    rw [read_doubleEscape_char _ kept expansion, push_eq_some_iff, push_eq_some_iff, plain]
    simp [kept]

/-- A quoted text in a line whose later words leave nothing more to drop is read as itself
    exactly if it is quotable. -/
theorem read_quoted_iff (fills : Fills words rest) (text : List Char) :
    read .double (escapeQuotes text ++ '"' :: ' ' :: rest) = some (text :: words) ↔
      Quotable text ∧ ShellWords.words rest = some words := by
  -- The induction carries what is read after a backslash along.
  have both : (read .double (escapeQuotes text ++ '"' :: ' ' :: rest) = some (text :: words) ↔
        Quotable text ∧ ShellWords.words rest = some words) ∧
      (read .doubleEscape (escapeQuotes text ++ '"' :: ' ' :: rest) = some (('\\' :: text) :: words) ↔
        Quotable ('\\' :: text) ∧ ShellWords.words rest = some words) := by
    induction text with
    | nil =>
      rw [escapeQuotes, List.flatMap_nil, List.nil_append, read_double_quote, read_bare_blank_iff,
        read_doubleEscape_special _ (by simp), push_eq_some_iff, and_iff_right quotable_nil]
      -- After a backslash the closing quote is escaped.
      exact ⟨Iff.rfl, iff_of_false (fun reads => nomatch reads.1) fun holds => not_quotable_last holds.1⟩
    | cons c text inductionHypothesis =>
      obtain ⟨plain, escaped⟩ := inductionHypothesis
      exact ⟨read_double_cons_iff c plain escaped, read_doubleEscape_cons_iff c fills plain⟩
  exact both.1

theorem escapeQuotes_of_not_mem {text : List Char} (absent : '"' ∉ text) : escapeQuotes text = text := by
  induction text with
  | nil => rfl
  | cons c text inductionHypothesis =>
    rw [List.mem_cons, not_or] at absent
    rw [escapeQuotes_char (Ne.symm absent.1), inductionHypothesis absent.2]

/-- A text that is quoted as it is must not have a double quote. -/
theorem read_unescaped_iff (fills : Fills words rest) (text : List Char) :
    read .double (text ++ '"' :: ' ' :: rest) = some (text :: words) ↔
      '"' ∉ text ∧ Quotable text ∧ ShellWords.words rest = some words := by
  constructor
  · intro reads
    have kept : (text :: words).flatten.count '\x27' = (text ++ '"' :: ' ' :: rest).count '\x27' := by
      rw [List.flatten_cons, List.count_append, List.count_append, fills.single]
      rfl
    have bound := size_le (show Mode.double ≠ .single from nofun) reads kept
    have room := fills.room
    have quotes : ('"' :: ' ' :: rest).count '"' = rest.count '"' + 1 := by simp
    rw [List.count_append, quotes] at bound
    simp only [size, List.flatten_cons, List.length_append, List.length_cons, Mode.pending] at room bound
    have absent : '"' ∉ text := List.count_eq_zero.mp (by omega)
    refine ⟨absent, (read_quoted_iff fills text).mp ?_⟩
    rw [escapeQuotes_of_not_mem absent, reads]
  · intro holds
    obtain ⟨absent, quotable⟩ := holds
    have reads := (read_quoted_iff fills text).mpr quotable
    rwa [escapeQuotes_of_not_mem absent] at reads

theorem Fills.unescaped (fills : Fills words rest) (text : List Char) :
    Fills (text :: words) (text ++ '"' :: ' ' :: rest) where
  single := by
    rw [List.flatten_cons, List.count_append, List.count_append, fills.single]
    rfl
  room := by
    have room := fills.room
    have quotes : ('"' :: ' ' :: rest).count '"' = rest.count '"' + 1 := by simp
    rw [List.count_append, quotes]
    simp only [size, List.flatten_cons, List.length_append, List.length_cons] at room ⊢
    omega

end Quoted

/-! ## Outside of quotes -/

/-- Characters that are themselves outside of quotes. -/
def isPlain (c : Char) : Bool :=
  !(c = '"' || c = '\x27' || c = '\\' || isBlank c || beginsExpansion c || isOperator c)

/-- Texts that are one word without any quotes. -/
structure PlainWord (word : List Char) : Prop where
  plain : ∀ c ∈ word, isPlain c = true
  nonempty : word ≠ []
  notComment : word.head? ≠ some '#'

instance (word : List Char) : Decidable (PlainWord word) :=
  decidable_of_iff (word.all isPlain = true ∧ word.isEmpty = false ∧ word.head? ≠ some '#') <| by
    rw [List.all_eq_true, List.isEmpty_eq_false_iff]
    exact ⟨fun holds => ⟨holds.1, holds.2.1, holds.2.2⟩,
      fun holds => ⟨holds.plain, holds.nonempty, holds.notComment⟩⟩

section Bare

variable (begun : Bool) (text : List Char)

@[simp] theorem read_bare_quote : read (.bare begun) ('"' :: text) = read .double text := bind_nothing _

@[simp] theorem read_bare_single : read (.bare begun) ('\x27' :: text) = read .single text := bind_nothing _

@[simp] theorem read_bare_backslash : read (.bare begun) ('\\' :: text) = read (.escape begun) text :=
  bind_nothing _

@[simp] theorem read_escape_newline : read (.escape begun) ('\n' :: text) = read (.bare begun) text :=
  bind_nothing _

theorem words_quote : words ('"' :: text) = read .double text := read_bare_quote false text

theorem words_hash : words ('#' :: text) = read .comment text := bind_nothing _

end Bare

theorem read_bare_char {c : Char} (plain : isPlain c = true) {begun : Bool}
    (notComment : begun = true ∨ c ≠ '#') (text : List Char) :
    read (.bare begun) (c :: text) = push c (read (.bare true) text) := by
  simp only [isPlain, Bool.not_eq_true', Bool.or_eq_false_iff, decide_eq_false_iff_not] at plain
  have noComment : ¬ (c = '#' ∧ begun = false) := by
    rintro ⟨isHash, rfl⟩
    cases notComment with
    | inl begun => cases begun
    | inr other => exact other isHash
  simp [read, step, plain, noComment, push]

theorem PlainWord.ne_hash {c : Char} {word : List Char} (plain : PlainWord (c :: word)) : c ≠ '#' :=
  fun isHash => plain.notComment (congrArg some isHash)

theorem read_bare_append_iff {word : List Char} (plain : ∀ c ∈ word, isPlain c = true)
    {text more : List Char} {words : List (List Char)} :
    read (.bare true) (word ++ text) = some ((word ++ more) :: words) ↔
      read (.bare true) text = some (more :: words) := by
  induction word with
  | nil => rfl
  | cons c word inductionHypothesis =>
    obtain ⟨here, later⟩ := List.forall_mem_cons.mp plain
    rw [List.cons_append, List.cons_append, read_bare_char here (.inl rfl), push_eq_some_iff,
      inductionHypothesis later, and_iff_right rfl]

/-- A plain word and a blank. -/
theorem words_blank_iff {word : List Char} (plain : PlainWord word) {rest : List Char}
    {more : List (List Char)} :
    words (word ++ ' ' :: rest) = some (word :: more) ↔ words rest = some more := by
  cases word with
  | nil => exact absurd rfl plain.nonempty
  | cons c word =>
    obtain ⟨here, later⟩ := List.forall_mem_cons.mp plain.plain
    have ended : read (.bare true) (word ++ ' ' :: rest) = some ((word ++ []) :: more) ↔
        read (.bare true) (' ' :: rest) = some ([] :: more) := read_bare_append_iff later
    rw [List.append_nil] at ended
    rw [words, List.cons_append, read_bare_char here (.inr plain.ne_hash), push_eq_some_iff, ended,
      and_iff_right rfl, read_bare_blank_iff]

/-- The last word fills the line up to its end. -/
theorem fills_last (word : List Char) : Fills [word] word where
  single := by simp
  room := by simp [size]

/-- A backslash outside of quotes is not read as itself. -/
theorem not_read_backslash {begun : Bool} {text : List Char} :
    read (.escape begun) text ≠ some ['\\' :: text] := by
  cases text with
  | nil => nofun
  | cons c text =>
    have tail := fills_last text
    by_cases isNewline : c = '\n'
    · subst isNewline
      rw [read_escape_newline]
      exact tail.not_read (.bare begun) nofun rfl (List.cons_ne_nil '\\' ['\n']) rfl
    · have taken : read (.escape begun) (c :: text) = push c (read (.bare true) text) := by
        simp [read, step, isNewline, push]
      rw [taken]
      intro reads
      obtain ⟨rfl, reads⟩ := push_eq_some_iff.mp reads
      exact tail.not_read (.bare true) nofun rfl (List.cons_ne_nil '\\' []) rfl reads

theorem not_read_of_not_plain {c : Char} (bad : isPlain c = false) {begun : Bool} {text : List Char} :
    read (.bare begun) (c :: text) ≠ some [c :: text] := by
  have tail := fills_last text
  intro reads
  by_cases isQuote : c = '"'
  · subst isQuote
    rw [read_bare_quote] at reads
    exact tail.not_read .double nofun rfl (List.cons_ne_nil '"' []) rfl reads
  by_cases isSingle : c = '\x27'
  · subst isSingle
    rw [read_bare_single] at reads
    have fewer := count_single_le reads
    rw [List.flatten_cons, List.flatten_nil, List.append_nil, List.count_cons_self] at fewer
    omega
  by_cases isBackslash : c = '\\'
  · subst isBackslash
    rw [read_bare_backslash] at reads
    exact not_read_backslash reads
  cases blank : isBlank c with
  | true =>
    cases begun with
    | true =>
      have ended : read (.bare true) (c :: text) = (words text).bind Piece.wordEnd.before := by
        simp [read, step, isQuote, isSingle, isBackslash, blank, words]
      rw [ended] at reads
      obtain ⟨read, -, ends⟩ := Option.bind_eq_some_iff.mp reads
      cases ends
    | false =>
      have skipped : read (.bare false) (c :: text) = read (.bare false) text := by
        simp [read, step, isQuote, isSingle, isBackslash, blank, bind_nothing]
      rw [skipped] at reads
      exact tail.not_read (.bare false) nofun rfl (List.cons_ne_nil c []) (by simp [isSingle]) reads
  | false =>
    have stops : beginsExpansion c = true ∨ isOperator c = true := by
      rw [← Bool.or_eq_true]
      simpa only [isPlain, isQuote, isSingle, isBackslash, blank, decide_false, Bool.false_or,
        Bool.not_eq_false'] using bad
    have noComment : c ≠ '#' := by
      rintro rfl
      revert stops
      decide
    simp [read, step, isQuote, isSingle, isBackslash, blank, noComment, stops] at reads

theorem nil_of_read_comment {text : List Char} {all : List (List Char)}
    (reads : read .comment text = some all) : all = [] := by
  induction text with
  | nil =>
    cases reads
    rfl
  | cons c text inductionHypothesis =>
    obtain ⟨next, piece, words, stepped, rest, before⟩ := read_cons_eq_some reads
    obtain ⟨-, taken⟩ := Option.ite_none_left_eq_some.mp stepped
    cases taken
    cases before
    exact inductionHypothesis rest

/-- The rest of the last word is read as itself exactly if its characters are plain. -/
theorem read_bare_last_iff (word : List Char) :
    read (.bare true) word = some [word] ↔ ∀ c ∈ word, isPlain c = true := by
  induction word with
  | nil => exact iff_of_true rfl nofun
  | cons c word inductionHypothesis =>
    rw [List.forall_mem_cons, ← inductionHypothesis]
    cases plain : isPlain c with
    | false => exact iff_of_false (not_read_of_not_plain plain) fun holds => Bool.noConfusion holds.1
    | true =>
      rw [read_bare_char plain (.inl rfl), push_eq_some_iff, and_iff_right rfl, and_iff_right rfl]

/-- A word at the end of the line is read as itself exactly if it is plain. -/
theorem words_last_iff (word : List Char) : words word = some [word] ↔ PlainWord word := by
  cases word with
  | nil => exact iff_of_false nofun fun plain => plain.nonempty rfl
  | cons c word =>
    constructor
    · intro reads
      cases plain : isPlain c with
      | false => exact absurd reads (not_read_of_not_plain plain)
      | true =>
        by_cases isHash : c = '#'
        · subst isHash
          rw [words_hash] at reads
          cases nil_of_read_comment reads
        · rw [words, read_bare_char plain (.inr isHash), push_eq_some_iff, read_bare_last_iff] at reads
          refine ⟨List.forall_mem_cons.mpr ⟨plain, reads.2⟩, List.cons_ne_nil c word, ?_⟩
          exact fun isHead => isHash (Option.some.inj isHead)
    · intro plain
      obtain ⟨here, later⟩ := List.forall_mem_cons.mp plain.plain
      rw [words, read_bare_char here (.inr plain.ne_hash), push_eq_some_iff, and_iff_right rfl]
      exact (read_bare_last_iff word).mpr later

/-! ## Arguments -/

section Arguments

variable {flag rest : List Char} {more : List (List Char)}

/-- A flag and its value between double quotes. -/
theorem words_argument_iff (plain : PlainWord flag) (fills : Fills more rest) (text : List Char) :
    words (flag ++ ' ' :: '"' :: (text ++ '"' :: ' ' :: rest)) = some (flag :: text :: more) ↔
      '"' ∉ text ∧ Quotable text ∧ words rest = some more := by
  rw [words_blank_iff plain, words_quote, read_unescaped_iff fills]

theorem words_escaped_argument_iff (plain : PlainWord flag) (fills : Fills more rest) (text : List Char) :
    words (flag ++ ' ' :: '"' :: (escapeQuotes text ++ '"' :: ' ' :: rest)) =
        some (flag :: text :: more) ↔
      Quotable text ∧ words rest = some more := by
  rw [words_blank_iff plain, words_quote, read_quoted_iff fills]

theorem Fills.argument (fills : Fills more rest) (flag text : List Char) :
    Fills (flag :: text :: more) (flag ++ ' ' :: '"' :: (text ++ '"' :: ' ' :: rest)) where
  single := by
    rw [List.flatten_cons, List.count_append, List.count_append, (fills.unescaped text).single]
    simp
  room := by
    have room := (fills.unescaped text).room
    have quotes : (' ' :: '"' :: (text ++ '"' :: ' ' :: rest)).count '"' =
        (text ++ '"' :: ' ' :: rest).count '"' + 1 := by simp
    rw [List.count_append, quotes, List.length_append]
    simp only [size, List.flatten_cons, List.length_append, List.length_cons] at room ⊢
    omega

end Arguments

end ShellWords
