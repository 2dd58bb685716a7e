import JsonForms.Json.Reader.Quoted
import JsonForms.Proofs.Grammar.Reading

/-!
# Reading strings

Each reader of a part of a string takes exactly what the grammar derives there.
The statements are equivalences: a reader leaves a rest exactly when what it
took off is a spelling of what it returned.
-/

namespace JsonForms.Json

open Grammar

/-! ## Units -/

/-- Below code 103 only hexadecimal digits have a value, and it is their own. -/
theorem hexDigit_of_hexValue? :
    ∀ code < 103, (hexValue? (Char.ofNat code)).all (fun value =>
      "0123456789abcdef".toList[value]? = some (Char.ofNat code) ∨
        "0123456789ABCDEF".toList[value]? = some (Char.ofNat code)) = true := by
  decide +kernel

/-- A hexadecimal digit with a small letter has its value. -/
theorem hexValue?_lower : ∀ value : Fin 16,
    hexValue? ("0123456789abcdef".toList.get ⟨value, value.isLt⟩) = some value.val := by
  decide +kernel

/-- A hexadecimal digit with a capital letter has its value. -/
theorem hexValue?_upper : ∀ value : Fin 16,
    hexValue? ("0123456789ABCDEF".toList.get ⟨value, value.isLt⟩) = some value.val := by
  decide +kernel

/-- Only characters up to the small letter f have a hexadecimal value. -/
theorem code_lt_of_hexValue? {digit : Char} {value : Nat}
    (valued : hexValue? digit = some value) : digit.toNat < 103 := by
  simp only [hexValue?, Char.le_def, UInt32.le_iff_toNat_le, Char.toNat_val,
    Char.reduceToNat] at valued
  split at valued
  · omega
  · split at valued
    · omega
    · split at valued
      · omega
      · cases valued

/-- Readers and grammar have the same hexadecimal digits. -/
theorem hexValue?_eq_some_iff {digit : Char} {value : Nat} :
    hexValue? digit = some value ↔ HexDigit digit value := by
  constructor
  · intro valued
    have listed := hexDigit_of_hexValue? digit.toNat (code_lt_of_hexValue? valued)
    rw [Char.ofNat_toNat, valued, Option.all_some, decide_eq_true_eq] at listed
    exact listed
  · rintro (listed | listed)
    · obtain ⟨inside, rfl⟩ := List.getElem?_eq_some_iff.mp listed
      exact hexValue?_lower ⟨value, inside⟩
    · obtain ⟨inside, rfl⟩ := List.getElem?_eq_some_iff.mp listed
      exact hexValue?_upper ⟨value, inside⟩

/-- Four characters have a value exactly when they are the digits of a code unit with that value. -/
theorem unitValue?_eq_some_iff {a b c d : Char} {unit : Nat} :
    unitValue? a b c d = some unit ↔ CodeUnit [a, b, c, d] unit := by
  constructor
  · intro valued
    unfold unitValue? at valued
    split at valued
    next first second third fourth one two three four =>
      cases valued
      have code := CodeUnit.mk (hexValue?_eq_some_iff.mp one) (hexValue?_eq_some_iff.mp two)
        (hexValue?_eq_some_iff.mp three) (hexValue?_eq_some_iff.mp four)
      have horner : ((first * 16 + second) * 16 + third) * 16 + fourth =
          first * 0x1000 + second * 0x100 + third * 0x10 + fourth := by omega
      rw [horner]
      exact code
    · cases valued
  · rintro ⟨one, two, three, four⟩
    simp only [unitValue?, hexValue?_eq_some_iff.mpr one, hexValue?_eq_some_iff.mpr two,
      hexValue?_eq_some_iff.mpr three, hexValue?_eq_some_iff.mpr four, Option.some.injEq]
    omega

/-- A code unit is read exactly where its four digits stand. -/
theorem reads_readUnit_iff {input rest : List Char} {unit : Nat} :
    Reads (readUnit input) unit rest ↔
      ∃ digits, input = digits ++ rest ∧ CodeUnit digits unit := by
  constructor
  · intro read
    unfold readUnit at read
    dsimp only at read
    split at read
    next a b c d following =>
      split at read
      next value valued =>
        obtain ⟨rfl, rfl⟩ := reads_ok_iff.mp read
        exact ⟨[a, b, c, d], rfl, unitValue?_eq_some_iff.mp valued⟩
      · simp at read
    · simp at read
  · rintro ⟨digits, rfl, code⟩
    have shape := code
    cases shape with
    | mk one two three four =>
        simp only [readUnit, List.cons_append, List.nil_append,
          unitValue?_eq_some_iff.mpr code]
        exact reads_ok _

/-! ## Escapes -/

/-- A valid code point is that of its character. -/
theorem toNat_ofNat_of_valid {code : Nat} (valid : code.isValidChar) :
    (Char.ofNat code).toNat = code := by
  rw [Char.ofNat, dif_pos valid]
  rfl

/-- The value of four hexadecimal digits is less than `0x10000`. -/
theorem codeUnit_lt {digits : List Char} {unit : Nat} (code : CodeUnit digits unit) :
    unit < 0x10000 := by
  have small : ∀ {digit : Char} {value : Nat}, HexDigit digit value → value < 16 := by
    rintro digit value (listed | listed)
    · exact (List.getElem?_eq_some_iff.mp listed).1
    · exact (List.getElem?_eq_some_iff.mp listed).1
  obtain ⟨one, two, three, four⟩ := code
  have := small one
  have := small two
  have := small three
  have := small four
  omega

/-- A unit that is no surrogate is the code of a character. -/
theorem toNat_ofNat_of_unit {digits : List Char} {unit : Nat} (code : CodeUnit digits unit)
    (single : ¬ isTrailing unit = true) (ordinary : ¬ isLeading unit = true) :
    (Char.ofNat unit).toNat = unit := by
  have small := codeUnit_lt code
  simp only [isTrailing, isLeading, Bool.and_eq_true, decide_eq_true_eq] at single ordinary
  refine toNat_ofNat_of_valid ?_
  simp only [Nat.isValidChar]
  omega

/-- A character is never a surrogate. -/
theorem not_surrogate (character : Char) :
    isTrailing character.toNat = false ∧ isLeading character.toNat = false := by
  have valid := character.valid
  simp only [UInt32.isValidChar, Nat.isValidChar, Char.toNat_val] at valid
  simp only [isTrailing, isLeading, Bool.and_eq_false_iff, decide_eq_false_iff_not]
  omega

/-- No code unit is both halves of a pair. -/
theorem not_isTrailing_of_isLeading {unit : Nat} (leading : isLeading unit = true) :
    isTrailing unit = false := by
  simp only [isLeading, Bool.and_eq_true, decide_eq_true_eq] at leading
  simp only [isTrailing, Bool.and_eq_false_iff, decide_eq_false_iff_not]
  omega

/-- The code point of a pair has ten bits of either half. -/
theorem toNat_pairCharacter {leading trailing : Nat} (isLeading : isLeading leading = true)
    (isTrailing : isTrailing trailing = true) :
    (pairCharacter leading trailing).toNat =
      0x10000 + (leading - 0xD800) * 0x400 + (trailing - 0xDC00) := by
  simp only [Json.isLeading, Json.isTrailing, Bool.and_eq_true, decide_eq_true_eq]
    at isLeading isTrailing
  refine toNat_ofNat_of_valid (Or.inr ⟨?_, ?_⟩) <;> omega

/-- The second half of a pair is read exactly where its escape stands. -/
theorem reads_readTrailing_iff {leading : Nat} {input rest : List Char} {character : Char} :
    Reads (readTrailing leading input) character rest ↔
      ∃ digits trailing, input = '\\' :: 'u' :: digits ++ rest ∧ CodeUnit digits trailing ∧
        isTrailing trailing = true ∧ pairCharacter leading trailing = character := by
  constructor
  · intro read
    unfold readTrailing at read
    split at read
    case h_3 =>
      split at read
      · simp at read
      next trailing middle shorter unit =>
        split at read
        next second =>
          obtain ⟨rfl, rfl⟩ := reads_ok_iff.mp read
          obtain ⟨taken, rfl, code⟩ := reads_readUnit_iff.mp ⟨shorter, unit⟩
          exact ⟨taken, trailing, rfl, code, second, rfl⟩
        · simp at read
    all_goals simp at read
  · rintro ⟨digits, trailing, rfl, code, second, rfl⟩
    obtain ⟨shorter, unit⟩ : Reads (readUnit (digits ++ rest)) trailing rest :=
      reads_readUnit_iff.mpr ⟨digits, rfl, code⟩
    simp only [readTrailing, List.cons_append, unit, second, if_true]
    exact reads_ok _

/-- What is read as an escape by number is spelled by one unit or by a pair. -/
theorem spelled_of_readNumbered {input rest : List Char} {character : Char}
    (read : Reads (readNumbered input) character rest) :
    ∃ front, input = front ++ rest ∧ Spelled ('\\' :: 'u' :: front) character := by
  unfold readNumbered at read
  split at read
  · simp at read
  next unit middle shorter first =>
    obtain ⟨digits, rfl, code⟩ := reads_readUnit_iff.mp ⟨shorter, first⟩
    split at read
    · simp at read
    next single =>
      split at read
      next leading =>
        obtain ⟨back, trailing, rfl, other, isTrailing, rfl⟩ :=
          reads_readTrailing_iff.mp (reads_widen_iff.mp read)
        refine ⟨digits ++ '\\' :: 'u' :: back, by simp, ?_⟩
        refine .pair code ?_ other ?_ (toNat_pairCharacter leading isTrailing)
        · simpa [isLeading] using leading
        · simpa [Json.isTrailing] using isTrailing
      next ordinary =>
        obtain ⟨rfl, rfl⟩ := reads_ok_iff.mp read
        exact ⟨digits, rfl, .unit (by rwa [toNat_ofNat_of_unit code single ordinary])⟩

/-- A unit that is the code of a character is read as that character. -/
theorem readNumbered_of_unit {digits : List Char} {character : Char}
    (code : CodeUnit digits character.toNat) (rest : List Char) :
    Reads (readNumbered (digits ++ rest)) character rest := by
  obtain ⟨shorter, unit⟩ : Reads (readUnit (digits ++ rest)) character.toNat rest :=
    reads_readUnit_iff.mpr ⟨digits, rfl, code⟩
  obtain ⟨single, ordinary⟩ := not_surrogate character
  simp [readNumbered, unit, single, ordinary]

/-- A leading unit is read with the escape of the trailing one after it. -/
theorem readNumbered_of_pair {front back : List Char} {leading trailing : Nat} {character : Char}
    (first : CodeUnit front leading) (leads : isLeading leading = true)
    (second : CodeUnit back trailing) (trails : isTrailing trailing = true)
    (code : character.toNat =
      0x10000 + (leading - 0xD800) * 0x400 + (trailing - 0xDC00)) (rest : List Char) :
    Reads (readNumbered (front ++ '\\' :: 'u' :: (back ++ rest))) character rest := by
  have same : pairCharacter leading trailing = character :=
    Char.toNat_inj.mp ((toNat_pairCharacter leads trails).trans code.symm)
  obtain ⟨shorter, unit⟩ : Reads (readUnit (front ++ '\\' :: 'u' :: (back ++ rest))) leading
      ('\\' :: 'u' :: (back ++ rest)) := reads_readUnit_iff.mpr ⟨front, rfl, first⟩
  have other : Reads (readTrailing leading ('\\' :: 'u' :: (back ++ rest))) character rest :=
    reads_readTrailing_iff.mpr ⟨back, trailing, rfl, second, trails, same⟩
  simp only [readNumbered, unit, not_isTrailing_of_isLeading leads, leads]
  exact reads_widen_iff.mpr other

/-- An escape by number is read exactly as the grammar spells it. -/
theorem reads_readNumbered_iff {input rest : List Char} {character : Char} :
    Reads (readNumbered input) character rest ↔
      ∃ front, input = front ++ rest ∧ Spelled ('\\' :: 'u' :: front) character := by
  constructor
  · exact spelled_of_readNumbered
  · rintro ⟨front, rfl, spelled⟩
    cases spelled with
    | short listed => simp [shortEscapes] at listed
    | unit code => exact readNumbered_of_unit code rest
    | @pair front back leading trailing _ first leads second trails code =>
        have split : front ++ '\\' :: 'u' :: back ++ rest =
            front ++ '\\' :: 'u' :: (back ++ rest) := by simp
        rw [split]
        refine readNumbered_of_pair first ?_ second ?_ code rest
        · simpa [isLeading] using leads
        · simpa [isTrailing] using trails

/-- The letters of escapes are those that are listed, with their characters. -/
theorem shortEscape?_eq_some_iff {letter character : Char} :
    shortEscape? letter = some character ↔ (letter, character) ∈ shortEscapes := by
  constructor
  · intro escape
    unfold shortEscape? at escape
    split at escape <;> cases escape <;> simp [shortEscapes]
  · intro listed
    simp only [shortEscapes, List.mem_cons, List.not_mem_nil, or_false, Prod.mk.injEq] at listed
    rcases listed with ⟨rfl, rfl⟩ | ⟨rfl, rfl⟩ | ⟨rfl, rfl⟩ | ⟨rfl, rfl⟩ | ⟨rfl, rfl⟩ |
      ⟨rfl, rfl⟩ | ⟨rfl, rfl⟩ | ⟨rfl, rfl⟩ <;> rfl

/-- After a backslash a reader takes exactly the rest of a spelling. -/
theorem reads_readEscape_iff {input rest : List Char} {character : Char} :
    Reads (readEscape input) character rest ↔
      ∃ front, input = front ++ rest ∧ Spelled ('\\' :: front) character := by
  constructor
  · intro read
    unfold readEscape at read
    split at read
    · simp at read
    · obtain ⟨front, rfl, spelled⟩ := reads_readNumbered_iff.mp (reads_widen_iff.mp read)
      exact ⟨'u' :: front, rfl, spelled⟩
    next letter following _ =>
      split at read
      next escape =>
        obtain ⟨rfl, rfl⟩ := reads_ok_iff.mp read
        exact ⟨[letter], rfl, .short (shortEscape?_eq_some_iff.mp escape)⟩
      · simp at read
  · rintro ⟨front, rfl, spelled⟩
    have numbered : ∀ {digits}, front = 'u' :: digits →
        Reads (readEscape (front ++ rest)) character rest := by
      rintro digits rfl
      exact reads_widen_iff.mpr (reads_readNumbered_iff.mpr ⟨digits, rfl, spelled⟩)
    cases spelled with
    | raw _ _ notBackslash => exact absurd rfl notBackslash
    | @short letter _ listed =>
        have escape := shortEscape?_eq_some_iff.mpr listed
        have notUnit : letter ≠ 'u' := by
          rintro rfl
          cases escape
        simp [readEscape, escape]
    | unit code => exact numbered rfl
    | pair first leads second trails code => exact numbered rfl

/-! ## Strings -/

/-- The characters from the space on are those from code point 0x20 on. -/
theorem not_lt_space_iff (character : Char) : ¬ character < ' ' ↔ 0x20 ≤ character.toNat := by
  simp [Char.lt_def, UInt32.lt_iff_toNat_lt]

/-- An escape continues a string with the character it was read as. -/
theorem readQuoted_escape {bound : Nat} {reversed following rest : List Char} {character : Char}
    {fits : ('\\' :: following).length ≤ bound}
    (escape : Reads (readEscape following) character rest) :
    ∃ fits', readQuoted reversed ('\\' :: following) fits =
      (readQuoted (character :: reversed) rest fits' : Reading String bound) := by
  obtain ⟨shorter, escape⟩ := escape
  refine ⟨by simp at fits; omega, ?_⟩
  rw [readQuoted]
  simp only [escape]

/-- A character that stands for itself continues a string. -/
theorem readQuoted_raw {bound : Nat} {reversed following : List Char} {character : Char}
    {fits : (character :: following).length ≤ bound} (printable : ¬ character < ' ')
    (notQuote : character ≠ '"') (notBackslash : character ≠ '\\') :
    readQuoted reversed (character :: following) fits =
      readQuoted (character :: reversed) following (Nat.le_of_lt fits) := by
  rw [readQuoted]
  · rw [if_neg printable]
  · exact notQuote
  · exact notBackslash

/-- What a reader takes for a string is the inside of one. -/
theorem characters_of_readQuoted {bound : Nat} {reversed input rest : List Char} {text : String}
    {fits : input.length ≤ bound} (read : Reads (readQuoted reversed input fits) text rest) :
    ∃ body characters, input = body ++ '"' :: rest ∧ Characters body characters ∧
      String.ofList (reversed.reverse ++ characters) = text := by
  fun_induction readQuoted reversed input fits with
  | case1 => simp at read
  | case2 =>
      obtain ⟨rfl, rfl⟩ := reads_ok_iff.mp read
      exact ⟨[], [], rfl, .nil, by simp⟩
  | case3 => simp at read
  | case4 _ _ _ _ _ _ escape _ inductionHypothesis =>
      obtain ⟨body, characters, rfl, inside, rfl⟩ := inductionHypothesis read
      obtain ⟨front, split, spelled⟩ := reads_readEscape_iff.mp ⟨_, escape⟩
      exact ⟨'\\' :: front ++ body, _ :: characters, by simp [split], .cons spelled inside,
        by simp⟩
  | case5 => simp at read
  | case6 _ _ _ _ notQuote notBackslash printable _ inductionHypothesis =>
      obtain ⟨body, characters, rfl, inside, rfl⟩ := inductionHypothesis read
      have spelled := Spelled.raw ((not_lt_space_iff _).mp printable) notQuote notBackslash
      exact ⟨_, _, rfl, .cons spelled inside, by simp⟩

/-- The inside of a string is read whole, up to the quote after it. -/
theorem readQuoted_of_characters {bound : Nat} {reversed input rest body characters : List Char}
    (inside : Characters body characters) (split : input = body ++ '"' :: rest)
    (fits : input.length ≤ bound) :
    Reads (readQuoted reversed input fits) (String.ofList (reversed.reverse ++ characters))
      rest := by
  induction inside generalizing reversed input with
  | nil =>
      obtain rfl : input = '"' :: rest := split
      rw [readQuoted]
      simp
  | @cons front character back characters head _ inductionHypothesis =>
      have next : ∀ {other : List Char}, other = back ++ '"' :: rest →
          ∀ fits' : other.length ≤ bound,
            Reads (readQuoted (character :: reversed) other fits')
              (String.ofList (reversed.reverse ++ character :: characters)) rest := by
        intro other split fits'
        have read : Reads (readQuoted (character :: reversed) other fits') _ rest :=
          inductionHypothesis split fits'
        simpa using read
      have escaped : ∀ {tail}, front = '\\' :: tail →
          Reads (readQuoted reversed input fits)
            (String.ofList (reversed.reverse ++ character :: characters)) rest := by
        rintro tail rfl
        obtain rfl : input = '\\' :: (tail ++ (back ++ '"' :: rest)) := by simp [split]
        have escape : Reads (readEscape (tail ++ (back ++ '"' :: rest))) character
            (back ++ '"' :: rest) := reads_readEscape_iff.mpr ⟨tail, rfl, head⟩
        obtain ⟨fits', continues⟩ : ∃ fits', readQuoted reversed _ fits =
            readQuoted (character :: reversed) _ fits' := readQuoted_escape escape
        rw [continues]
        exact next rfl fits'
      cases head with
      | raw printable notQuote notBackslash =>
          obtain rfl : input = character :: (back ++ '"' :: rest) := by simp [split]
          rw [readQuoted_raw ((not_lt_space_iff _).mpr printable) notQuote notBackslash]
          exact next rfl _
      | short listed => exact escaped rfl
      | unit code => exact escaped rfl
      | pair first leads second trails code => exact escaped rfl

/-- A string is read up to the first quote that no spelling contains. -/
theorem reads_readQuoted_iff {bound : Nat} {reversed input rest : List Char} {text : String}
    {fits : input.length ≤ bound} :
    Reads (readQuoted reversed input fits) text rest ↔
      ∃ body characters, input = body ++ '"' :: rest ∧ Characters body characters ∧
        String.ofList (reversed.reverse ++ characters) = text := by
  constructor
  · exact characters_of_readQuoted
  · rintro ⟨body, characters, split, inside, rfl⟩
    exact readQuoted_of_characters inside split fits

end JsonForms.Json
