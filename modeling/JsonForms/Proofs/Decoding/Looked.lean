import JsonForms.Json.Reader.Value
import JsonForms.Proofs.Grammar.Reading
import Mathlib.Data.Nat.Init

/-!
# What a reader has looked at

A fault keeps the text that was not consumed and how much of it was looked at besides. Both
are taken from the input of the reader that met it, however deep that one was called, so they
are about the whole text. At least one byte has been looked at where there is one.
-/

namespace JsonForms.Json

/-- What a fault leaves is left of the input, and if there was any input, some of it was
consumed or looked at. -/
structure Fault.ArisesIn (fault : Fault) (input : List Char) : Prop where
  suffix : fault.rest <:+ input
  looked : input ≠ [] → fault.rest ≠ input ∨ 0 < fault.ahead

/-- A reading that leaves what is left of its input, also when it fails. -/
structure Stays {α : Type} {bound : Nat} (reading : Reading α bound) (input : List Char) :
    Prop where
  rest : ∀ {progress}, reading = .ok progress → progress.rest <:+ input
  fault : ∀ {fault}, reading = .error fault → fault.ArisesIn input

namespace Fault.ArisesIn

variable {complaint : Complaint} {ahead : Nat} {rest input : List Char}

/-- A fault at the end of the input arises in it. -/
theorem atEnd : ArisesIn ⟨complaint, [], ahead⟩ input :=
  ⟨List.nil_suffix, fun nonempty => .inl nonempty.symm⟩

/-- A fault at a character that is still there arises in the input. -/
theorem here (suffix : rest <:+ input) : ArisesIn ⟨complaint, rest, ahead + 1⟩ input :=
  ⟨suffix, fun _ => .inr (Nat.succ_pos ahead)⟩

/-- A fault whose character has been consumed arises in the input. -/
theorem behind (shorter : rest.length < input.length) (suffix : rest <:+ input) :
    ArisesIn ⟨complaint, rest, ahead⟩ input :=
  ⟨suffix, fun _ => .inl fun same => Nat.lt_irrefl _ (same ▸ shorter)⟩

/-- A fault in what is left of an input is one in the input. -/
theorem of_suffix {fault : Fault} (arises : fault.ArisesIn rest) (suffix : rest <:+ input) :
    fault.ArisesIn input := by
  refine ⟨arises.suffix.trans suffix, fun nonempty => ?_⟩
  by_cases same : rest = input
  · exact same ▸ arises.looked (same ▸ nonempty)
  · left
    rintro rfl
    exact same (suffix.eq_of_length_le arises.suffix.length_le)

/-- Wherever reading stops, it has looked at a byte if there is one. -/
theorem one_le_looked {fault : Fault} (arises : fault.ArisesIn input) (nonempty : input ≠ []) :
    1 ≤ fault.looked input := by
  have sized : ∀ {characters : List Char}, characters ≠ [] → 1 ≤ Text.byteCount characters := by
    intro characters nonempty
    obtain ⟨first, following, rfl⟩ := List.exists_cons_of_ne_nil nonempty
    exact Nat.le_trans first.utf8Size_pos (Nat.le_add_right _ _)
  have one := sized nonempty
  obtain ⟨consumed, split⟩ := arises.suffix
  have size := congrArg Text.byteCount split
  rw [Text.byteCount_append] at size
  have counted : 0 < Text.byteCount consumed ∨ 0 < fault.ahead := by
    obtain moved | ahead := arises.looked nonempty
    · exact .inl (sized fun none => moved (by rw [← split, none]; rfl))
    · exact .inr ahead
  dsimp only [Fault.looked]
  omega

end Fault.ArisesIn

namespace Stays

variable {α β : Type} {bound wider : Nat} {rest input : List Char} {reading : Reading α bound}

/-- A reading that leaves an end of the input over stays in it. -/
theorem ok {value : α} {shorter : rest.length < bound} (suffix : rest <:+ input) :
    Stays (.ok ⟨value, rest, shorter⟩) input :=
  ⟨by rintro _ ⟨⟩; exact suffix, nofun⟩

/-- A fault that arises in the input stays in it. -/
theorem error {fault : Fault} (arises : fault.ArisesIn input) :
    Stays (.error fault : Reading α bound) input :=
  ⟨nofun, by rintro _ ⟨⟩; exact arises⟩

/-- A change of what was read, but not of what is left, stays in the input. -/
theorem map {change : Progress α bound → Progress β wider} (stays : Stays reading input)
    (same : ∀ progress, (change progress).rest = progress.rest) :
    Stays (reading.map change : Reading β wider) input := by
  cases reading with
  | error fault => exact error (stays.fault rfl)
  | ok progress => exact ⟨by rintro _ ⟨⟩; rw [same]; exact stays.rest rfl, nofun⟩

/-- A reading that stays in an end of the input stays in the input. -/
theorem of_suffix (stays : Stays reading rest) (suffix : rest <:+ input) : Stays reading input :=
  ⟨fun found => (stays.rest found).trans suffix, fun found => (stays.fault found).of_suffix suffix⟩

end Stays

/-! ## Strings -/

/-- The next visible character and what follows it are an end of the input. -/
theorem suffix_of_nextVisible {bound : Nat} {input rest : List Char} {character : Char}
    {fits : input.length ≤ bound} {shorter : rest.length < bound}
    (visible : nextVisible input fits = some ⟨character, rest, shorter⟩) :
    character :: rest <:+ input := by
  obtain ⟨spaces, _, rfl⟩ := split_of_nextVisible visible
  exact List.suffix_append spaces _

/-- What is behind the next visible character is left of the input. -/
theorem rest_suffix_of_nextVisible {bound : Nat} {input rest : List Char} {character : Char}
    {fits : input.length ≤ bound} {shorter : rest.length < bound}
    (visible : nextVisible input fits = some ⟨character, rest, shorter⟩) : rest <:+ input :=
  (List.suffix_cons character rest).trans (suffix_of_nextVisible visible)

/-- The four digits of a code unit are read within the input. -/
theorem stays_readUnit (input : List Char) : Stays (readUnit input) input := by
  have fails : ∀ {bound : Nat}, Stays (.error (if Text.byteCount (input.take 4) < 4 then
      ⟨.endInString, [], 0⟩ else ⟨.invalidEscape, input, 4⟩) : Reading Nat bound) input := by
    intro bound
    split
    · exact .error .atEnd
    · exact .error (.here (List.suffix_refl input))
  unfold readUnit
  dsimp only
  split
  next a b c d following =>
    split
    · exact .ok (List.suffix_append [a, b, c, d] following)
    · exact fails
  · exact fails

/-- The second half of a pair of surrogates is read within the input. -/
theorem stays_readTrailing (leading : Nat) (input : List Char) :
    Stays (readTrailing leading input) input := by
  unfold readTrailing
  split
  · exact .error .atEnd
  · exact .error .atEnd
  next digits =>
    have inside : digits <:+ '\\' :: 'u' :: digits := List.suffix_append ['\\', 'u'] digits
    split
    next fault failed => exact .error (((stays_readUnit digits).fault failed).of_suffix inside)
    next trailing rest shorter unit =>
      have suffix := ((stays_readUnit digits).rest unit).trans inside
      split
      · exact .ok suffix
      · exact .error (.behind (by simp; omega) suffix)
  next rest _ _ => exact .error (.here (List.suffix_cons _ rest))
  · exact .error (.here (List.suffix_refl _))

/-- An escape by number is read within the input. -/
theorem stays_readNumbered (input : List Char) : Stays (readNumbered input) input := by
  unfold readNumbered
  split
  next fault failed => exact .error ((stays_readUnit input).fault failed)
  next unit rest shorter found =>
    have suffix := (stays_readUnit input).rest found
    split
    · exact .error (.behind shorter suffix)
    · split
      · exact .of_suffix (.map (stays_readTrailing unit rest) fun _ => rfl) suffix
      · exact .ok suffix

/-- An escape is read within the input. -/
theorem stays_readEscape (input : List Char) : Stays (readEscape input) input := by
  unfold readEscape
  split
  · exact .error .atEnd
  next digits =>
    exact .of_suffix (.map (stays_readNumbered digits) fun _ => rfl) (List.suffix_cons 'u' digits)
  next letter following _ =>
    split
    · exact .ok (List.suffix_cons letter following)
    · exact .error (.here (List.suffix_refl _))

/-- A string is read within the input. -/
theorem stays_readQuoted {bound : Nat} (reversed input : List Char)
    (fits : input.length ≤ bound) : Stays (readQuoted reversed input fits) input := by
  fun_induction readQuoted reversed input fits with
  | case1 => exact .error .atEnd
  | case2 _ following => exact .ok (List.suffix_cons _ following)
  | case3 _ following _ fault failed =>
      exact .error (((stays_readEscape following).fault failed).of_suffix (List.suffix_cons _ _))
  | case4 _ following _ character rest shorter found _ inductionHypothesis =>
      have suffix := (stays_readEscape following).rest found
      exact inductionHypothesis.of_suffix (suffix.trans (List.suffix_cons _ _))
  | case5 => exact .error (.here (List.suffix_refl _))
  | case6 _ character following _ _ _ _ _ inductionHypothesis =>
      exact inductionHypothesis.of_suffix (List.suffix_cons character following)

/-! ## Numbers -/

/-- The digits of an exponent are scanned within the input. -/
theorem stays_scanExponentDigits {bound : Nat} (numeral : Numeral) (down : Bool)
    (input : List Char) (fits : input.length < bound) :
    Stays (scanExponentDigits numeral down input fits) input := by
  unfold scanExponentDigits
  dsimp only
  split
  · exact .error (.here (List.suffix_refl input))
  · exact .ok (List.dropWhile_suffix _)

/-- An exponent is scanned within the input. -/
theorem stays_scanExponent {bound : Nat} (numeral : Numeral) (input : List Char)
    (fits : input.length < bound) : Stays (scanExponent numeral input fits) input := by
  unfold scanExponent
  split
  case h_7 => exact .ok (List.suffix_refl _)
  all_goals exact (stays_scanExponentDigits _ _ _ _).of_suffix (by simp [List.suffix_cons_iff])

/-- A fraction is scanned within the input. -/
theorem stays_scanFraction {bound : Nat} (numeral : Numeral) (input : List Char)
    (fits : input.length < bound) : Stays (scanFraction numeral input fits) input := by
  unfold scanFraction
  split
  · dsimp only
    split
    · exact .error (.here (List.suffix_cons _ _))
    · exact (stays_scanExponent _ _ _).of_suffix
        ((List.dropWhile_suffix _).trans (List.suffix_cons _ _))
  · exact stays_scanExponent numeral _ fits

/-- A numeral is scanned within the input. -/
theorem stays_scanNumeral (negative : Bool) (input : List Char) :
    Stays (scanNumeral negative input) input := by
  unfold scanNumeral
  split
  · exact .error .atEnd
  next first following =>
    dsimp only
    split
    · exact .error (.here (List.suffix_refl _))
    · split
      · exact .error (.here (List.suffix_cons first following))
      · exact (stays_scanFraction _ _ _).of_suffix
          ((List.dropWhile_suffix _).trans (List.suffix_cons first following))

/-- The digits of an exponent stand before what is left after them. -/
def ExponentBefore (numeral : Numeral) (rest input : List Char) : Prop :=
  ∀ down digits, numeral.exponent = some (down, digits) → digits ++ rest <:+ input

/-- Exponent digits that lie before the rest of an input do so in all longer ones. -/
theorem ExponentBefore.of_suffix {numeral : Numeral} {rest input wider : List Char}
    (before : ExponentBefore numeral rest input) (suffix : input <:+ wider) :
    ExponentBefore numeral rest wider :=
  fun down digits found => (before down digits found).trans suffix

/-- Scanned exponent digits lie right before what is left. -/
theorem exponentBefore_of_scanExponent {bound : Nat} {numeral scanned : Numeral}
    {input rest : List Char} {fits : input.length < bound} (none : numeral.exponent = none)
    (read : Reads (scanExponent numeral input fits) scanned rest) :
    ExponentBefore scanned rest input := by
  have digits : ∀ {down : Bool} {input : List Char} {fits : input.length < bound},
      Reads (scanExponentDigits numeral down input fits) scanned rest →
        ExponentBefore scanned rest input := by
    intro down input fits read
    unfold scanExponentDigits at read
    dsimp only at read
    split at read
    · simp at read
    · obtain ⟨rfl, rfl⟩ := reads_ok_iff.mp read
      rintro _ _ ⟨⟩
      exact ⟨[], List.takeWhile_append_dropWhile⟩
  unfold scanExponent at read
  split at read
  case h_7 =>
    obtain ⟨rfl, rfl⟩ := reads_ok_iff.mp read
    intro down digits found
    rw [none] at found
    cases found
  all_goals exact (digits read).of_suffix (by simp [List.suffix_cons_iff])

/-- Exponent digits scanned after a fraction lie right before what is left. -/
theorem exponentBefore_of_scanFraction {bound : Nat} {numeral scanned : Numeral}
    {input rest : List Char} {fits : input.length < bound} (none : numeral.exponent = none)
    (read : Reads (scanFraction numeral input fits) scanned rest) :
    ExponentBefore scanned rest input := by
  unfold scanFraction at read
  split at read
  · dsimp only at read
    split at read
    · simp at read
    · refine ExponentBefore.of_suffix (exponentBefore_of_scanExponent ?_ read)
        ((List.dropWhile_suffix _).trans (List.suffix_cons _ _))
      exact none
  · exact exponentBefore_of_scanExponent none read

/-- The first digit of a numeral is consumed, and its exponent stands behind it. -/
theorem exponentBefore_of_scanNumeral {negative : Bool} {scanned : Numeral}
    {input rest : List Char} (read : Reads (scanNumeral negative input) scanned rest) :
    ∃ first following, input = first :: following ∧ ExponentBefore scanned rest following := by
  unfold scanNumeral at read
  split at read
  · simp at read
  next first following =>
    dsimp only at read
    split at read
    · simp at read
    · split at read
      · simp at read
      · exact ⟨first, following, rfl, (exponentBefore_of_scanFraction rfl read).of_suffix
          (List.dropWhile_suffix _)⟩

/-- The digits that an exponent is refused for are an end of all its digits. -/
theorem suffix_of_exponentValue {sum : Nat} {digits unread : List Char}
    (failed : exponentValue sum digits = .error unread) : unread <:+ digits := by
  fun_induction exponentValue sum digits with
  | case1 => cases failed
  | case2 _ _ _ _ _ inductionHypothesis =>
      exact (inductionHypothesis failed).trans (List.suffix_cons _ _)
  | case3 =>
      cases failed
      exact List.suffix_cons _ _

/-- What did not have to be looked at are digits of the exponent, if it is anything. -/
theorem suffix_of_value {numeral : Numeral} {unread : List Char}
    (failed : numeral.value = .error unread) :
    unread = [] ∨ ∃ down digits, numeral.exponent = some (down, digits) ∧ unread <:+ digits := by
  have scaled : ∀ {significand : Nat} {exponent : Int},
      numeral.ofScaled significand exponent = .error unread → unread = [] := by
    intro significand exponent failed
    unfold Numeral.ofScaled at failed
    split at failed
    · cases failed
    · exact (Except.error.inj failed).symm
  unfold Numeral.value at failed
  dsimp only at failed
  split at failed
  · cases failed
  · split at failed
    · exact .inl (scaled failed)
    next down digits found =>
      split at failed
      · exact .inl (scaled failed)
      next rest tooLarge =>
        split at failed
        · cases failed
        · cases failed
          exact .inr ⟨down, digits, found, suffix_of_exponentValue tooLarge⟩

/-- A number is read within the input, also when its value is refused. -/
theorem stays_readNumber (negative : Bool) (input : List Char) :
    Stays (readNumber negative input) input := by
  unfold readNumber
  split
  next fault failed => exact .error ((stays_scanNumeral negative input).fault failed)
  next numeral rest shorter scanned =>
    split
    · exact .ok ((stays_scanNumeral negative input).rest scanned)
    next unread tooLarge =>
      obtain rfl | ⟨down, digits, found, suffix⟩ := suffix_of_value tooLarge
      · exact .error (.behind shorter ((stays_scanNumeral negative input).rest scanned))
      · obtain ⟨first, following, rfl, before⟩ := exponentBefore_of_scanNumeral ⟨shorter, scanned⟩
        have inside := ((List.suffix_append_self_iff).mpr suffix).trans (before down digits found)
        exact .error (.behind (Nat.lt_succ_of_le inside.length_le)
          (inside.trans (List.suffix_cons first following)))

/-! ## Values -/

/-- The letters of a word are read within the input. -/
theorem stays_readWord {bound : Nat} (value : Json) (word input : List Char)
    (fits : input.length < bound) : Stays (readWord value word input fits) input := by
  fun_induction readWord value word input fits with
  | case1 => exact .ok (List.suffix_refl _)
  | case2 => exact .error .atEnd
  | case3 _ _ _ _ inductionHypothesis => exact inductionHypothesis.of_suffix (List.suffix_cons _ _)
  | case4 => exact .error (.here (List.suffix_refl _))

/-- A key is read within the input. -/
theorem stays_readKey (input : List Char) : Stays (readKey input) input := by
  unfold readKey
  split
  next fault failed => exact .error ((stays_readQuoted _ _ _).fault failed)
  next key afterKey shorter found =>
    have suffix := (stays_readQuoted _ _ _).rest found
    split
    · exact .error .atEnd
    next visible =>
      have behind := (suffix_of_nextVisible visible).trans suffix
      split
      · exact .ok ((List.suffix_cons _ _).trans behind)
      · exact .error (.here behind)

mutual

/-- Reading a value leaves what is left of its input, whatever the input is. -/
theorem stays_readValue (input : List Char) : Stays (readValue input) input := by
  rw [readValue]
  -- The first visible character decides: none, n, t, f, a quote, a minus sign, an opening
  -- bracket, an opening brace, or another one.
  split
  · exact .error .atEnd
  next visible =>
    exact (stays_readWord _ _ _ _).of_suffix
      (rest_suffix_of_nextVisible visible)
  next visible =>
    exact (stays_readWord _ _ _ _).of_suffix
      (rest_suffix_of_nextVisible visible)
  next visible =>
    exact (stays_readWord _ _ _ _).of_suffix
      (rest_suffix_of_nextVisible visible)
  next visible =>
    exact .of_suffix (.map (stays_readQuoted _ _ _) fun _ => rfl)
      (rest_suffix_of_nextVisible visible)
  next visible =>
    exact .of_suffix (.map (stays_readNumber _ _) fun _ => rfl)
      (rest_suffix_of_nextVisible visible)
  next rest shorter visible =>
    have inside := rest_suffix_of_nextVisible visible
    split
    · exact .error .atEnd
    next closing =>
      exact .ok ((rest_suffix_of_nextVisible closing).trans inside)
    · split
      next fault failed => exact .error (((stays_readValue rest).fault failed).of_suffix inside)
      next item afterItem shorterItem found =>
        exact .of_suffix (.map (stays_readItems _ _ afterItem _) fun _ => rfl)
          (((stays_readValue rest).rest found).trans inside)
  next rest shorter visible =>
    have inside := rest_suffix_of_nextVisible visible
    split
    · exact .error .atEnd
    next closing =>
      exact .ok ((rest_suffix_of_nextVisible closing).trans inside)
    next afterQuote shorterQuote quote =>
      exact .of_suffix (.map (stays_readMembers _ _ afterQuote _) fun _ => rfl)
        ((rest_suffix_of_nextVisible quote).trans inside)
    next other => exact .error (.here ((suffix_of_nextVisible other).trans inside))
  next visible =>
    split
    · exact .of_suffix (.map (stays_readNumber _ _) fun _ => rfl) (suffix_of_nextVisible visible)
    · exact .error (.here (suffix_of_nextVisible visible))
termination_by input.length

/-- The items of a list are read within the input. -/
theorem stays_readItems (bound : Nat) (reversed : List Json) (input : List Char)
    (fits : input.length ≤ bound) : Stays (readItems bound reversed input fits) input := by
  rw [readItems]
  split
  · exact .error .atEnd
  next visible => exact .ok (rest_suffix_of_nextVisible visible)
  next rest shorter visible =>
    have inside := rest_suffix_of_nextVisible visible
    split
    next closing => exact .error (.here ((suffix_of_nextVisible closing).trans inside))
    · split
      next fault failed => exact .error (((stays_readValue rest).fault failed).of_suffix inside)
      next item afterItem shorterItem found =>
        exact (stays_readItems bound (item :: reversed) afterItem _).of_suffix
          (((stays_readValue rest).rest found).trans inside)
  next visible => exact .error (.here (suffix_of_nextVisible visible))
termination_by input.length

/-- The members of an object are read within the input. -/
theorem stays_readMembers (bound : Nat) (reversed : List (String × Json)) (input : List Char)
    (fits : input.length ≤ bound) : Stays (readMembers bound reversed input fits) input := by
  rw [readMembers]
  split
  next fault failed => exact .error ((stays_readKey input).fault failed)
  next key afterKey shorterKey keyed =>
    have afterColon := (stays_readKey input).rest keyed
    split
    next fault failed => exact .error (((stays_readValue afterKey).fault failed).of_suffix
      afterColon)
    next value afterValue shorterValue found =>
      have inside := ((stays_readValue afterKey).rest found).trans afterColon
      split
      · exact .error .atEnd
      next closing =>
        exact .ok ((rest_suffix_of_nextVisible closing).trans inside)
      next rest shorter comma =>
        have afterComma := (rest_suffix_of_nextVisible comma).trans inside
        split
        · exact .error .atEnd
        next afterQuote shorterQuote quote =>
          exact (stays_readMembers bound _ afterQuote _).of_suffix
            ((rest_suffix_of_nextVisible quote).trans afterComma)
        next closing => exact .error (.here ((suffix_of_nextVisible closing).trans afterComma))
        next other => exact .error (.here ((suffix_of_nextVisible other).trans afterComma))
      next other => exact .error (.here ((suffix_of_nextVisible other).trans inside))
termination_by input.length

end

/-- A fault of a text arises in it. -/
theorem arisesIn_of_read {text : List Char} {fault : Fault} (failed : read text = .error fault) :
    fault.ArisesIn text := by
  unfold read at failed
  split at failed
  next found =>
    cases failed
    exact (stays_readValue text).fault found
  next found =>
    split at failed
    · cases failed
    next visible =>
      cases failed
      exact .here ((suffix_of_nextVisible visible).trans ((stays_readValue text).rest found))

end JsonForms.Json
