import JsonForms.Proofs.Grammar.Numerals
import JsonForms.Proofs.Grammar.Strings

/-!
# What stands outside the strings of a program

A text is cut at brackets, commas, spaces and string literals. Each piece of a
program is a truth value or an integer literal of a signed word. So no fraction,
exponent, larger number, null or object stands in a program outside its strings,
at any depth.
-/

namespace JsonForms.Grammar

mutual

/-- A text with one space in the place of each string literal. -/
def bare : List Char → List Char
  | [] => []
  | '"' :: following => ' ' :: bareAfterQuote following
  | character :: following => character :: bare following

/-- The bare text after the string literal that has been opened. -/
def bareAfterQuote : List Char → List Char
  | [] => []
  | '"' :: following => bare following
  | '\\' :: _ :: following => bareAfterQuote following
  | _ :: following => bareAfterQuote following

end

/-- The characters between lexemes. -/
def separates (character : Char) : Bool :=
  [' ', '\n', '\t', '\r', ',', '[', ']'].contains character

/-- The pieces of a text between brackets, commas, spaces and string literals. -/
def lexemes (text : List Char) : List (List Char) :=
  ((bare text).splitOnP separates).filter fun piece => !piece.isEmpty

/-- What programs consist of besides brackets, commas, spaces and strings. -/
inductive Lexeme : List Char → Prop where
  | true : Lexeme ['t', 'r', 'u', 'e']
  | false : Lexeme ['f', 'a', 'l', 's', 'e']
  | int {text value} (literal : Integer text value) (least : -0x8000000000000000 ≤ value)
      (greatest : value ≤ 0x7FFFFFFFFFFFFFFF) : Lexeme text

/-- A text that closes its strings and has nothing but lexemes outside them. -/
structure Clean (text : List Char) : Prop where
  closed : ∀ rest, bare (text ++ rest) = bare text ++ bare rest
  pieces : ∀ piece ∈ (bare text).splitOnP separates, piece = [] ∨ Lexeme piece

/-- The empty text is clean. -/
theorem clean_nil : Clean [] where
  closed _ := by simp [bare]
  pieces _ member := .inl (by simpa [bare] using member)

/-- A separator between two clean texts adds no lexeme. -/
theorem clean_append_cons {front back : List Char} {separator : Char} (left : Clean front)
    (separated : separates separator = true) (right : Clean back) :
    Clean (front ++ separator :: back) := by
  have notQuote : separator ≠ '"' := by
    rintro rfl
    cases separated
  have split : ∀ rest, bare (separator :: rest) = separator :: bare rest := by
    intro rest
    rw [bare]
    exact notQuote
  constructor
  · intro rest
    rw [List.append_assoc, List.cons_append, left.closed, split, right.closed, left.closed, split]
    simp
  · intro piece member
    rw [left.closed, split, List.splitOnP_append_cons _ _ separated, List.mem_append] at member
    exact member.elim (left.pieces piece) (right.pieces piece)

/-- Spaces separate lexemes. -/
theorem separates_of_blank {text : List Char} (blank : Blank text) :
    ∀ character ∈ text, separates character = true := by
  intro character member
  have space := blank character member
  simp only [List.mem_cons, List.not_mem_nil, or_false] at space
  rcases space with rfl | rfl | rfl | rfl <;> decide

/-- Spaces are clean. -/
theorem clean_blank {text : List Char} (blank : Blank text) : Clean text := by
  have separated := separates_of_blank blank
  clear blank
  induction text with
  | nil => exact clean_nil
  | cons space text inductionHypothesis =>
      rw [List.forall_mem_cons] at separated
      exact clean_append_cons clean_nil separated.1 (inductionHypothesis separated.2)

/-- A clean text stays clean with spaces around it. -/
theorem clean_pad {before text after : List Char} (front : Blank before) (clean : Clean text)
    (back : Blank after) : Clean (before ++ text ++ after) := by
  have separated := separates_of_blank front
  clear front
  induction before with
  | nil =>
      cases after with
      | nil => simpa using clean
      | cons space after =>
          have spaces := separates_of_blank back space (by simp)
          have rest : Blank after := fun character member => back character (by simp [member])
          simpa using clean_append_cons clean spaces (clean_blank rest)
  | cons space before inductionHypothesis =>
      rw [List.forall_mem_cons] at separated
      simpa using clean_append_cons clean_nil separated.1 (inductionHypothesis separated.2)

/-- A clean text stays clean in brackets. -/
theorem clean_bracketed {inside : List Char} (clean : Clean inside) :
    Clean ('[' :: inside ++ [']']) := by
  have opened := clean_append_cons clean_nil (by decide : separates '[' = true) clean
  exact clean_append_cons opened (by decide : separates ']' = true) clean_nil

/-! ## Strings -/

/-- A character that stands for itself leaves the string open. -/
theorem bareAfterQuote_raw {character : Char} {following : List Char}
    (notQuote : character ≠ '"') (notBackslash : character ≠ '\\') :
    bareAfterQuote (character :: following) = bareAfterQuote following := by
  rw [bareAfterQuote]
  · exact notQuote
  · rintro _ _ rfl
    exact absurd rfl notBackslash

/-- The digits of a code unit leave the string open. -/
theorem bareAfterQuote_codeUnit {digits : List Char} {unit : Nat} (code : CodeUnit digits unit)
    (rest : List Char) : bareAfterQuote (digits ++ rest) = bareAfterQuote rest := by
  have plain : ∀ {digit : Char} {value : Nat}, HexDigit digit value →
      digit ≠ '"' ∧ digit ≠ '\\' := by
    intro digit value isDigit
    have valued := Json.hexValue?_eq_some_iff.mpr isDigit
    constructor <;> rintro rfl <;> cases valued
  obtain ⟨one, two, three, four⟩ := code
  simp [bareAfterQuote_raw, plain one, plain two, plain three, plain four]

/-- No spelling of a character closes the string it stands in. -/
theorem bareAfterQuote_spelled {front : List Char} {character : Char}
    (spelled : Spelled front character) (rest : List Char) :
    bareAfterQuote (front ++ rest) = bareAfterQuote rest := by
  cases spelled with
  | raw _ notQuote notBackslash => exact bareAfterQuote_raw notQuote notBackslash
  | short listed => simp [bareAfterQuote]
  | unit code => simp [bareAfterQuote, bareAfterQuote_codeUnit code]
  | pair first leads second trails code =>
      simp [bareAfterQuote, bareAfterQuote_codeUnit first, bareAfterQuote_codeUnit second]

/-- What is inside a string leaves it open, and the quote behind it closes it. -/
theorem bareAfterQuote_characters {body characters : List Char}
    (inside : Characters body characters) (rest : List Char) :
    bareAfterQuote (body ++ '"' :: rest) = bare rest := by
  induction inside with
  | nil => simp [bareAfterQuote]
  | cons head _ inductionHypothesis =>
      rw [List.append_assoc, bareAfterQuote_spelled head, inductionHypothesis]

/-- A string literal is clean. -/
theorem clean_string {body characters : List Char} (inside : Characters body characters) :
    Clean ('"' :: body ++ ['"']) := by
  have literal : ∀ rest, bare ('"' :: body ++ '"' :: rest) = ' ' :: bare rest := by
    intro rest
    rw [List.cons_append, bare, bareAfterQuote_characters inside]
  constructor
  · intro rest
    rw [List.append_assoc, List.singleton_append, literal, literal]
    simp [bare]
  · have space := clean_append_cons clean_nil (by decide : separates ' ' = true) clean_nil
    rw [literal]
    exact space.pieces

/-! ## Lexemes -/

/-- A lexeme is clean if it has neither separators nor quotes in it. -/
theorem clean_lexeme {text : List Char} (lexeme : Lexeme text)
    (plain : ∀ character ∈ text, separates character = false ∧ character ≠ '"') :
    Clean text := by
  have unchanged : ∀ {front : List Char} (rest : List Char),
      (∀ character ∈ front, character ≠ '"') → bare (front ++ rest) = front ++ bare rest := by
    intro front rest plain
    induction front with
    | nil => rfl
    | cons character front inductionHypothesis =>
        rw [List.forall_mem_cons] at plain
        rw [List.cons_append, bare, inductionHypothesis plain.2, List.cons_append]
        exact plain.1
  have noQuote := fun character member => (plain character member).2
  have alone : bare text = text := by simpa [bare] using unchanged [] noQuote
  constructor
  · intro rest
    rw [unchanged rest noQuote, alone]
  · intro piece member
    rw [alone, List.splitOnP_eq_singleton fun character member => (plain character member).1,
      List.mem_singleton] at member
    exact .inr (member ▸ lexeme)

/-- An integer literal consists of digits and perhaps a minus sign. -/
theorem plain_of_integer {text : List Char} {value : Int} (literal : Integer text value) :
    ∀ character ∈ text, separates character = false ∧ character ≠ '"' := by
  have digits : ∀ {text number}, Natural text number →
      ∀ character ∈ text, separates character = false ∧ character ≠ '"' := by
    intro text number numeral character member
    obtain ⟨first, following, rfl, isDigit, allDigits, _⟩ := (Json.natural_iff _ _).mp numeral
    have isDigit : character.isDigit = true := by
      rcases List.mem_cons.mp member with rfl | member
      · exact isDigit
      · exact allDigits character member
    constructor
    · rw [Bool.eq_false_iff]
      intro separated
      simp only [separates, List.contains_iff_mem, List.mem_cons, List.not_mem_nil,
        or_false] at separated
      rcases separated with rfl | rfl | rfl | rfl | rfl | rfl | rfl <;> cases isDigit
    · rintro rfl
      cases isDigit
  cases literal with
  | unsigned numeral => exact digits numeral
  | negative numeral nonzero =>
      rw [List.forall_mem_cons]
      exact ⟨by decide, digits numeral⟩

mutual

/-- The text of a value is clean. -/
theorem clean_of_value {text : List Char} {expr : Expr} : Value text expr → Clean text
  | .true => clean_lexeme .true (by simp [separates])
  | .false => clean_lexeme .false (by simp [separates])
  | .int literal least greatest =>
      clean_lexeme (.int literal least greatest) (plain_of_integer literal)
  | .str inside => clean_string inside
  | .empty blank => clean_bracketed (clean_blank blank)
  | .list separated => clean_bracketed (clean_of_items separated)

/-- The text of a value with spaces around it is clean. -/
theorem clean_of_padded {text : List Char} {expr : Expr} : Padded text expr → Clean text
  | .pad front value back => clean_pad front (clean_of_value value) back

/-- The texts of items with commas between them are clean. -/
theorem clean_of_items {text : List Char} {items : List Expr} : Items text items → Clean text
  | .last value => clean_of_padded value
  | .more value rest =>
      clean_append_cons (clean_of_padded value) (by decide) (clean_of_items rest)

end

/-- All lexemes of a program are truth values and integer literals of signed words. -/
theorem lexeme_of_program {text : List Char} {expr : Expr} (program : Program text expr) :
    ∀ piece ∈ lexemes text, Lexeme piece := by
  intro piece member
  obtain ⟨member, nonempty⟩ := List.mem_filter.mp member
  rcases (clean_of_padded program).pieces piece member with rfl | lexeme
  · cases nonempty
  · exact lexeme

example : lexemes "[-1, \"2.5 null\", true]".toList = [['-', '1'], ['t', 'r', 'u', 'e']] := by
  decide

end JsonForms.Grammar
