import JsonForms.Proofs.Grammar.Soundness

/-!
# Completeness of reading

A derived value is read, up to any rest that cannot prolong it. The proof
follows the derivation and not the readers, so every statement is about all
rests at once.
-/

namespace JsonForms.Json

open Grammar

/-- An integer literal begins with a digit or with a minus sign. -/
theorem head_of_integer {text : List Char} {value : Int} (literal : Integer text value) :
    ∃ first following, text = first :: following ∧ (first.isDigit = true ∨ first = '-') := by
  cases literal with
  | unsigned numeral =>
      obtain ⟨first, following, rfl, isDigit, _⟩ := (natural_iff _ _).mp numeral
      exact ⟨first, following, rfl, .inl isDigit⟩
  | negative numeral nonzero => exact ⟨_, _, rfl, .inr rfl⟩

/-- A digit is no space. -/
theorem isSpace_of_isDigit {character : Char} (isDigit : character.isDigit = true) :
    isSpace character = false := by
  rw [Bool.eq_false_iff]
  intro space
  rw [isSpace_iff] at space
  simp only [List.mem_cons, List.not_mem_nil, or_false] at space
  rcases space with rfl | rfl | rfl | rfl <;> cases isDigit

/-- A text begins with a character that is neither a space nor closes a list. -/
def Starts (text : List Char) : Prop :=
  ∃ first following, text = first :: following ∧ isSpace first = false ∧ first ≠ ']'

/-- A value begins with a character that is no space and closes no list. -/
theorem starts_of_value {text : List Char} {expr : Expr} (value : Value text expr) :
    Starts text := by
  cases value with
  | true => exact ⟨_, _, rfl, by decide, by decide⟩
  | false => exact ⟨_, _, rfl, by decide, by decide⟩
  | int literal least greatest =>
      obtain ⟨first, following, rfl, isDigit | rfl⟩ := head_of_integer literal
      · refine ⟨first, following, rfl, isSpace_of_isDigit isDigit, ?_⟩
        rintro rfl
        cases isDigit
      · exact ⟨_, _, rfl, by decide, by decide⟩
  | str inside => exact ⟨_, _, rfl, by decide, by decide⟩
  | empty blank => exact ⟨_, _, rfl, by decide, by decide⟩
  | list separated => exact ⟨_, _, rfl, by decide, by decide⟩

/-- Behind some spaces stands a character that does not close a list. -/
def Opens (input : List Char) : Prop :=
  ∃ blank text, Blank blank ∧ Starts text ∧ input = blank ++ text

/-- How a text begins does not depend on what follows. -/
theorem Starts.append {text : List Char} (starts : Starts text) (rest : List Char) :
    Starts (text ++ rest) := by
  obtain ⟨first, following, rfl, visible, notBracket⟩ := starts
  exact ⟨first, following ++ rest, rfl, visible, notBracket⟩

/-- A value with spaces around it begins behind the spaces. -/
theorem opens_of_padded {text : List Char} {item : Expr} (padded : Padded text item)
    (rest : List Char) : Opens (text ++ rest) := by
  obtain @⟨before, inside, after, _, front, value, _⟩ := padded
  exact ⟨before, _, front, (starts_of_value value).append (after ++ rest), by simp⟩

/-- Behind the spaces before an item stands no closing bracket. -/
theorem opens_of_items {text : List Char} {items : List Expr} (items : Items text items)
    (rest : List Char) : Opens (text ++ rest) := by
  cases items with
  | last value => exact opens_of_padded value rest
  | more value others =>
      rw [List.append_assoc]
      exact opens_of_padded value _

/-- The next visible character of such an input does not close the list. -/
theorem nextVisible_of_opens {bound : Nat} {input : List Char} (opens : Opens input)
    (fits : input.length ≤ bound) :
    ∃ first following shorter, first ≠ ']' ∧
      nextVisible input fits = some ⟨first, following, shorter⟩ := by
  obtain ⟨blank, _, spaces, ⟨first, following, rfl, visible, notBracket⟩, split⟩ := opens
  obtain ⟨shorter, equal⟩ := nextVisible_of_split fits split spaces visible
  exact ⟨first, following, shorter, notBracket, equal⟩

/-- A reading of items goes on with an item at the front of a text, after those already read. -/
structure GoesOn {bound : Nat} (reading : Reading (List Json) bound) (reversed : List Json)
    (input : List Char) : Prop where
  fails : ∀ {fault}, readValue input = .error fault → reading = .error fault
  reads : ∀ {item after shorter}, readValue input = .ok ⟨item, after, shorter⟩ →
    ∃ fits, reading = readItems bound (item :: reversed) after fits

/-- Behind an opening bracket reading goes on with an item, if the list is not closed. -/
theorem readValue_of_bracket {before inside input : List Char} (front : Blank before)
    (opens : Opens inside) (split : input = before ++ '[' :: inside) :
    ∃ reading : Reading (List Json) input.length,
      readValue input = reading.map (Progress.map .array) ∧ GoesOn reading [] inside := by
  obtain ⟨first, following, _, notBracket, opening⟩ := nextVisible_of_opens opens (Nat.le_refl _)
  obtain ⟨shorter, visible⟩ := nextVisible_of_split (Nat.le_refl _) split front (by decide)
  rw [readValue, visible]
  simp only [opening]
  split
  next impossible => cases impossible
  next same =>
    cases same
    exact absurd rfl notBracket
  next =>
    cases read : readValue inside with
    | error fault =>
        refine ⟨.error fault, rfl, ?_, ?_⟩
        · intro other failed
          cases read.symm.trans failed
          rfl
        · intro item after shorter found
          cases read.symm.trans found
    | ok progress =>
        refine ⟨_, rfl, ?_, ?_⟩
        · intro fault failed
          cases read.symm.trans failed
        · intro item after shorter found
          cases read.symm.trans found
          exact ⟨_, rfl⟩

/-- Behind a comma reading goes on with an item. -/
theorem readItems_of_comma {bound : Nat} {reversed : List Json} {blank inside input : List Char}
    (spaces : Blank blank) (opens : Opens inside) (split : input = blank ++ ',' :: inside)
    (fits : input.length ≤ bound) :
    GoesOn (readItems bound reversed input fits) reversed inside := by
  obtain ⟨first, following, _, notBracket, opening⟩ := nextVisible_of_opens opens (Nat.le_refl _)
  obtain ⟨shorter, visible⟩ := nextVisible_of_split (Nat.le_refl _) split spaces (by decide)
  rw [readItems, visible]
  simp only [opening]
  split
  next same =>
    cases same
    exact absurd rfl notBracket
  next =>
    constructor
    · intro fault failed
      rw [failed]
    · intro item after shorter found
      rw [found]
      exact ⟨_, rfl⟩

/-- A value that begins with a digit is read as a number without a sign. -/
theorem readValue_of_digit {input rest : List Char} {first : Char}
    {shorter : rest.length < input.length} (isDigit : first.isDigit = true)
    (visible : nextVisible input (Nat.le_refl _) = some ⟨first, rest, shorter⟩) :
    readValue input = (readNumber false (first :: rest)).map fun progress =>
      (progress.map .number).widen shorter := by
  rw [readValue]
  simp only [visible]
  split
  case h_1 impossible => cases impossible
  case h_9 same =>
    cases same
    rw [if_pos isDigit]
  all_goals
    next same =>
      cases same
      cases isDigit

/-- A numeral with its sign is read by the reader of numbers. -/
theorem readValue_of_natural {negative : Bool} {before text rest input : List Char} {number : Nat}
    (front : Blank before) (natural : Natural text number)
    (split : input = before ++ withSign negative text ++ rest) :
    ∃ fits, readValue input = (readNumber negative (text ++ rest)).map fun progress =>
      (progress.map .number).widen fits := by
  cases negative with
  | true =>
      obtain ⟨shorter, visible⟩ := nextVisible_of_split (Nat.le_refl _)
        (by simpa [withSign] using split) front (by decide)
      refine ⟨Nat.le_of_lt shorter, ?_⟩
      rw [readValue, visible]
      rfl
  | false =>
      obtain ⟨first, following, rfl, isDigit, _⟩ := (natural_iff _ _).mp natural
      obtain ⟨shorter, visible⟩ := nextVisible_of_split (Nat.le_refl _)
        (by simpa [withSign] using split) front (isSpace_of_isDigit isDigit)
      exact ⟨shorter, readValue_of_digit isDigit visible⟩

/-- A numeral that has a value is read as that value. -/
theorem reads_of_natural {negative : Bool} {before text rest input : List Char} {number : Nat}
    {result : Number} (front : Blank before) (natural : Natural text number)
    (value : (⟨negative, text, [], none⟩ : Numeral).value = .ok result)
    (delimited : Delimited rest) (split : input = before ++ withSign negative text ++ rest) :
    Reads (readValue input) (.number result) rest := by
  obtain ⟨fits, read⟩ := readValue_of_natural front natural split
  obtain ⟨shorter, scanned⟩ := @scanNumeral_of_natural negative _ _ _ natural delimited
  have valued : Reads (readNumber negative (text ++ rest)) result rest := by
    simp only [readNumber, scanned, value]
    exact reads_ok shorter
  rw [read]
  exact reads_map_widen_iff.mpr ⟨result, valued, rfl⟩

/-- An integer literal within a signed word is read as that word. -/
theorem readValue_of_integer {before text rest input : List Char} {value : Int}
    (front : Blank before) (literal : Integer text value) (least : -0x8000000000000000 ≤ value)
    (greatest : value ≤ 0x7FFFFFFFFFFFFFFF) (delimited : Delimited rest)
    (split : input = before ++ text ++ rest) :
    ∃ json, Reads (readValue input) json rest ∧
      Expr.ofJson json = .ok (.int (Int64.ofInt value)) := by
  have means : ∀ {number : Number}, number.word? = some (Int64.ofInt value) →
      Expr.ofJson (.number number) = .ok (.int (Int64.ofInt value)) := by
    intro number isWord
    rw [Expr.ofJson, isWord]
  cases literal with
  | @unsigned text number numeral =>
      have fits : number ≤ greatestSignificand := by
        simp only [greatestSignificand]
        omega
      exact ⟨_, @reads_of_natural false _ _ _ _ _ _ front numeral
        (value_of_natural numeral fits) delimited split,
          means (word?_ofWord_of_unsigned rfl (by omega))⟩
  | @negative text number numeral nonzero =>
      have fits : number ≤ greatestSignificand := by
        simp only [greatestSignificand]
        omega
      exact ⟨_, @reads_of_natural true _ _ _ _ _ _ front numeral
        (value_of_natural numeral fits) delimited split,
          means (word?_ofWord_of_negative rfl nonzero (by omega))⟩

/-- Spaces before what delimits a value delimit it as well. -/
theorem delimited_of_blank {blank rest : List Char} (spaces : Blank blank)
    (delimited : Delimited rest) : Delimited (blank ++ rest) := by
  cases blank with
  | nil => exact delimited
  | cons space blank =>
      intro character following split
      simp only [List.cons_append, List.cons.injEq] at split
      exact .inl (split.1 ▸ (blank_cons_iff.mp spaces).1)

/-- A value is delimited by spaces up to the end of the text. -/
theorem delimited_of_end {blank : List Char} (spaces : Blank blank) : Delimited blank := by
  have atEnd : Delimited [] := by
    intro _ _ impossible
    cases impossible
  simpa using delimited_of_blank spaces atEnd

/-- A value is delimited by a comma or a closing bracket. -/
theorem delimited_cons {character : Char} {following : List Char}
    (delimits : character = ',' ∨ character = ']') : Delimited (character :: following) := by
  intro first rest split
  cases split
  exact .inr delimits

mutual

/-- A derived value is read as a value of its meaning, up to any rest that
cannot prolong it. -/
theorem readValue_of_value {text : List Char} {expr : Expr} :
    Value text expr → ∀ {before rest input : List Char}, Blank before → Delimited rest →
      input = before ++ text ++ rest →
      ∃ json, Reads (readValue input) json rest ∧ Expr.ofJson json = .ok expr
  | .true, before, rest, input, front, _, split => by
      obtain ⟨shorter, visible⟩ :=
        nextVisible_of_split (Nat.le_refl _) (by simpa using split) front (by decide)
      refine ⟨.bool true, ?_, by rw [Expr.ofJson]⟩
      rw [readValue, visible]
      exact reads_readWord_iff.mpr ⟨rfl, rfl⟩
  | .false, before, rest, input, front, _, split => by
      obtain ⟨shorter, visible⟩ :=
        nextVisible_of_split (Nat.le_refl _) (by simpa using split) front (by decide)
      refine ⟨.bool false, ?_, by rw [Expr.ofJson]⟩
      rw [readValue, visible]
      exact reads_readWord_iff.mpr ⟨rfl, rfl⟩
  | .int literal least greatest, _, _, _, front, delimited, split =>
      readValue_of_integer front literal least greatest delimited split
  | @Value.str body characters inside, before, rest, input, front, _, split => by
      obtain ⟨shorter, visible⟩ :=
        nextVisible_of_split (Nat.le_refl _) (by simpa using split) front (by decide)
      refine ⟨.string (String.ofList characters), ?_, by rw [Expr.ofJson]⟩
      rw [readValue, visible]
      exact reads_map_iff.mpr
        ⟨_, reads_readQuoted_iff.mpr ⟨body, characters, by simp, inside, rfl⟩, by simp⟩
  | @Value.empty inside blank, before, rest, input, front, _, split => by
      have split : input = before ++ '[' :: (inside ++ ']' :: rest) := by simpa using split
      obtain ⟨shorter, visible⟩ := nextVisible_of_split (Nat.le_refl _) split front (by decide)
      obtain ⟨shorterList, closing⟩ := nextVisible_of_split (Nat.le_refl _)
        (rfl : inside ++ ']' :: rest = _) blank (by decide)
      refine ⟨.array [], ?_, Expr.ofJson_array_eq_ok_iff.mpr ⟨[], .nil, rfl⟩⟩
      rw [readValue, visible]
      simp only [closing]
      exact reads_ok _
  | @Value.list inside items separated, before, rest, input, front, _, split => by
      obtain ⟨json, jsons, middle, _, first, means, others⟩ :=
        readItems_of_items separated rest rfl
      obtain ⟨reading, bracket, goesOn⟩ :=
        readValue_of_bracket front (opens_of_items separated (']' :: rest)) (by simpa using split)
      obtain ⟨fits, behind⟩ := goesOn.reads first
      refine ⟨.array (json :: jsons), ?_, Expr.ofJson_array_eq_ok_iff.mpr ⟨items, means, rfl⟩⟩
      rw [bracket, behind]
      exact reads_map_iff.mpr ⟨_, others input.length [json] fits, rfl⟩

/-- Derived items are read one by one up to the closing bracket: the first by
the reader of values, the others by the reader of what follows an item. -/
theorem readItems_of_items {text : List Char} {items : List Expr} :
    Items text items → ∀ (rest : List Char) {input : List Char}, input = text ++ ']' :: rest →
      ∃ json jsons middle shorter,
        readValue input = .ok ⟨json, middle, shorter⟩ ∧
        List.Forall₂ (fun json expr => Expr.ofJson json = .ok expr) (json :: jsons) items ∧
        ∀ (bound : Nat) (reversed : List Json) (fits : middle.length ≤ bound),
          Reads (readItems bound reversed middle fits) (reversed.reverse ++ jsons) rest
  | .last (@Padded.pad _ _ after _ front value back), rest, input, split => by
      obtain ⟨json, ⟨shorter, first⟩, means⟩ :=
        readValue_of_value value front (delimited_of_blank back (delimited_cons (.inr rfl)))
          (by simpa using split)
      refine ⟨json, [], _, shorter, first, .cons means .nil, fun _ _ fits => ?_⟩
      obtain ⟨_, closing⟩ := nextVisible_of_split (Nat.le_refl _)
        (rfl : after ++ ']' :: rest = _) back (by decide)
      rw [readItems, closing]
      simp
  | .more (@Padded.pad _ _ after _ front value back) others, rest, input, split => by
      obtain ⟨json, ⟨shorter, first⟩, means⟩ :=
        readValue_of_value value front (delimited_of_blank back (delimited_cons (.inl rfl)))
          (by simpa using split)
      obtain ⟨item, jsons, middle, _, second, othersMean, tail⟩ :=
        readItems_of_items others rest rfl
      refine ⟨json, item :: jsons, _, shorter, first, .cons means othersMean,
        fun bound reversed fits => ?_⟩
      have comma := @readItems_of_comma bound reversed _ _ _ back
        (opens_of_items others (']' :: rest)) rfl fits
      obtain ⟨fitsMiddle, behind⟩ := comma.reads second
      rw [behind]
      simpa using tail bound (item :: reversed) fitsMiddle

end

end JsonForms.Json
