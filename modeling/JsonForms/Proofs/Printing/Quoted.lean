import JsonForms.Text.Quoted

/-!
# Quoted texts

A quoted text tells its characters and where it ends, whatever follows it. This
does not depend on which characters are printable: `Shows` lists the shapes that
a shown character can have, and the shapes alone tell the character and the end
of its shown form. Main statement: equal texts that begin with a quoted text
begin with the same one.
-/

namespace JsonForms.Text

/-! ## Runs of characters -/

/-- The text goes on with a character that stops a run. -/
def StopsAt (stops : Char → Bool) (rest : List Char) : Prop :=
  ∃ stop following, rest = stop :: following ∧ stops stop = true

/-- A run without stops is the part before the first one. -/
theorem takeWhile_of_stopsAt {stops : Char → Bool} {run rest : List Char}
    (clear : ∀ character ∈ run, stops character = false) (stopped : StopsAt stops rest) :
    (run ++ rest).takeWhile (fun character => !stops character) = run := by
  obtain ⟨stop, following, rfl, ends⟩ := stopped
  rw [List.takeWhile_append_of_pos fun character member => by rw [clear character member]; rfl,
    List.takeWhile_cons_of_neg (by rw [ends]; exact Bool.false_ne_true), List.append_nil]

/-- Two runs without stops, each up to a stop, are told by the whole text. -/
theorem run_unique {stops : Char → Bool} {run other rest more : List Char}
    (clear : ∀ character ∈ run, stops character = false) (stopped : StopsAt stops rest)
    (clearOther : ∀ character ∈ other, stops character = false) (stoppedOther : StopsAt stops more)
    (same : run ++ rest = other ++ more) : run = other ∧ rest = more := by
  have runs : run = other := by
    rw [← takeWhile_of_stopsAt clear stopped, same, takeWhile_of_stopsAt clearOther stoppedOther]
  subst runs
  exact ⟨rfl, List.append_cancel_left same⟩

/-! ## Code points -/

/-- No digit of any base is a closing brace. -/
theorem noBrace_toDigits {base : Nat} (large : 1 < base) (number : Nat) :
    ∀ digit ∈ Nat.toDigits base number, (digit == '}') = false := by
  induction number using Nat.strongRecOn with
  | ind number inductionHypothesis =>
      rw [Nat.toDigits_eq_if large]
      split
      next small => simp
      next several =>
        have shorter : number / base < number := Nat.div_lt_self (by omega) large
        intro digit member
        obtain member | last := List.mem_append.mp member
        · exact inductionHypothesis _ shorter digit member
        · rw [List.mem_singleton.mp last]
          exact beq_false_of_ne (Nat.digitChar_ne '}' rfl)

/-- No two numbers below sixteen are written with one digit. -/
theorem hexDigit_injective {left right : Nat} (leftSmall : left < 16) (rightSmall : right < 16)
    (same : left.digitChar = right.digitChar) : left = right := by
  have table : ∀ left right : Fin 16, left.val.digitChar = right.val.digitChar → left = right := by
    decide
  exact congrArg Fin.val (table ⟨left, leftSmall⟩ ⟨right, rightSmall⟩ same)

/-- A number is told by its hexadecimal digits. -/
theorem hexDigits_injective : Function.Injective (Nat.toDigits 16) := by
  intro left
  induction left using Nat.strongRecOn with
  | ind left inductionHypothesis =>
      intro right same
      rw [Nat.toDigits_eq_if (by decide), Nat.toDigits_eq_if (n := right) (by decide)] at same
      split at same <;> split at same
      next leftSmall rightSmall =>
        exact hexDigit_injective leftSmall rightSmall (List.singleton_inj.mp same)
      next leftSmall rightLarge =>
        have lengths := congrArg List.length same
        have nonempty := List.length_pos_iff.mpr (@Nat.toDigits_ne_nil (right / 16) 16)
        simp only [List.length_append, List.length_singleton] at lengths
        omega
      next leftLarge rightSmall =>
        have lengths := congrArg List.length same
        have nonempty := List.length_pos_iff.mpr (@Nat.toDigits_ne_nil (left / 16) 16)
        simp only [List.length_append, List.length_singleton] at lengths
        omega
      next leftLarge rightLarge =>
        obtain ⟨fronts, lasts⟩ := List.append_singleton_inj.mp same
        have quotients := inductionHypothesis (left / 16) (by omega) fronts
        have remainders := hexDigit_injective (Nat.mod_lt _ (by decide)) (Nat.mod_lt _ (by decide))
          lasts
        omega

/-! ## Characters -/

/-- The characters that are shown by a letter after a backslash, each after its letter. -/
def letterEscapes : List (Char × Char) :=
  [('"', '"'), ('\\', '\\'), ('n', '\n'), ('r', '\r'), ('t', '\t'), ('0', '\x00')]

/-- The text shows the character as it is, by a letter, or by its code point. -/
inductive Shows : List Char → Char → Prop where
  | plain {character : Char} (noQuote : character ≠ '"') (noBackslash : character ≠ '\\') :
      Shows [character] character
  | letter {letter character : Char} (listed : (letter, character) ∈ letterEscapes) :
      Shows ['\\', letter] character
  | code (character : Char) :
      Shows ('\\' :: 'u' :: '{' :: Nat.toDigits 16 character.toNat ++ ['}']) character

/-- The escaped form of a character shows it. -/
theorem shows_escape (character : Char) : Shows (escape character) character := by
  unfold escape
  split
  case h_7 noQuote noBackslash _ _ _ _ =>
    split
    · exact .plain noQuote noBackslash
    · exact .code character
  all_goals exact .letter (by decide)

/-- A letter stands for one character, and no letter opens a code point. -/
theorem letterEscapes_unique :
    ∀ first ∈ letterEscapes, first.1 ≠ 'u' ∧
      ∀ second ∈ letterEscapes, first.1 = second.1 → first.2 = second.2 := by
  decide

/-- A shown character is told by any text that begins with it, and so is the rest. -/
theorem Shows.unique {front back rest more : List Char} {left right : Char}
    (shown : Shows front left) (other : Shows back right) (same : front ++ rest = back ++ more) :
    left = right ∧ rest = more := by
  cases shown with
  | plain noQuote noBackslash =>
      cases other with
      | plain => simpa using same
      | letter => exact absurd (List.cons.inj same).1 noBackslash
      | code => exact absurd (List.cons.inj same).1 noBackslash
  | @letter opens _ listed =>
      cases other with
      | plain _ noBackslash => exact absurd (List.cons.inj same).1.symm noBackslash
      | letter listedToo =>
          obtain ⟨letters, rests⟩ := List.cons.inj (List.cons.inj same).2
          exact ⟨(letterEscapes_unique _ listed).2 _ listedToo letters, rests⟩
      | code =>
          obtain ⟨letters, _⟩ := List.cons.inj (List.cons.inj same).2
          exact absurd letters (letterEscapes_unique _ listed).1
  | code =>
      cases other with
      | plain _ noBackslash => exact absurd (List.cons.inj same).1.symm noBackslash
      | letter listed =>
          obtain ⟨letters, _⟩ := List.cons.inj (List.cons.inj same).2
          exact absurd letters.symm (letterEscapes_unique _ listed).1
      | code =>
          simp only [List.cons_append, List.append_assoc, List.nil_append, List.cons.injEq,
            true_and] at same
          -- The digits go up to the brace, so they are the same, and so are the code points.
          obtain ⟨digits, rests⟩ := run_unique (noBrace_toDigits (by decide) _)
            ⟨'}', rest, rfl, by decide⟩ (noBrace_toDigits (by decide) _) ⟨'}', more, rfl, by decide⟩
            same
          exact ⟨Char.toNat_inj.mp (hexDigits_injective digits), (List.cons.inj rests).2⟩

/-- A shown character begins with no quote. -/
theorem Shows.noQuote {front : List Char} {character : Char} (shown : Shows front character)
    (rest more : List Char) : front ++ rest ≠ '"' :: more := by
  intro same
  cases shown with
  | plain noQuote => exact noQuote (List.cons.inj same).1
  | letter | code => exact absurd (List.cons.inj same).1 (by decide)

/-- The characters before the closing quote are told by any text that begins with
their shown forms and the quote. -/
theorem flatMap_escape_unique {left right rest more : List Char}
    (same : left.flatMap escape ++ '"' :: rest = right.flatMap escape ++ '"' :: more) :
    left = right ∧ rest = more := by
  induction left generalizing right with
  | nil =>
      cases right with
      | nil => exact ⟨rfl, (List.cons.inj same).2⟩
      | cons character right =>
          rw [List.flatMap_cons, List.append_assoc] at same
          exact absurd same.symm ((shows_escape character).noQuote _ _)
  | cons character left inductionHypothesis =>
      rw [List.flatMap_cons, List.append_assoc] at same
      cases right with
      | nil => exact absurd same ((shows_escape character).noQuote _ _)
      | cons other right =>
          rw [List.flatMap_cons, List.append_assoc] at same
          obtain ⟨rfl, following⟩ := (shows_escape character).unique (shows_escape other) same
          obtain ⟨rfl, rests⟩ := inductionHypothesis following
          exact ⟨rfl, rests⟩

/-- A quoted text is its escaped characters between quotes. -/
theorem toList_quote (text : String) :
    (quote text).toList = '"' :: text.toList.flatMap escape ++ ['"'] := by
  rw [quote, String.toList_ofList]

/-- A quoted text is told by any text that begins with it, and so is the rest. -/
theorem quote_unique {left right : String} {rest more : List Char}
    (same : (quote left).toList ++ rest = (quote right).toList ++ more) :
    left = right ∧ rest = more := by
  simp only [toList_quote, List.cons_append, List.append_assoc, List.nil_append, List.cons.injEq,
    true_and] at same
  obtain ⟨characters, rests⟩ := flatMap_escape_unique same
  exact ⟨String.toList_inj.mp characters, rests⟩

end JsonForms.Text
