import JsonForms.Expr.Printer
import JsonForms.Proofs.Grammar.Programs

/-!
# Written expressions are programs

What the printer writes is derived by the grammar, with the expression written
as its meaning. Since decoding accepts the grammar, it undoes printing, and the
reader need not be looked at again.
-/

namespace JsonForms

open Grammar

/-! ## Integers -/

/-- The decimal digits of a number are a run of digits that stands for it. -/
theorem digits_toDigits (number : Nat) : Digits (Nat.toDigits 10 number) number := by
  induction number using Nat.strongRecOn with
  | ind number inductionHypothesis =>
      by_cases small : number < 10
      · rw [Nat.toDigits_of_lt_base small]
        exact .one ((Json.digit_iff_digitChar _ _).mpr ⟨small, rfl⟩)
      · have prior := inductionHypothesis (number / 10) (by omega)
        have last : Digit (number % 10).digitChar (number % 10) :=
          (Json.digit_iff_digitChar _ _).mpr ⟨by omega, rfl⟩
        have digits := prior.snoc last
        rw [Nat.div_add_mod' number 10] at digits
        rwa [Nat.toDigits_of_base_le (by decide) (by omega)]

/-- The decimal digits of a positive number do not begin with zero. -/
theorem leading_toDigits {number : Nat} (positive : 0 < number) :
    ∃ first following, Nat.toDigits 10 number = first :: following ∧ first ≠ '0' := by
  induction number using Nat.strongRecOn with
  | ind number inductionHypothesis =>
      by_cases small : number < 10
      · refine ⟨number.digitChar, [], Nat.toDigits_of_lt_base small, fun zero => ?_⟩
        have code := Nat.toNat_digitChar_of_lt_ten small
        simp only [zero, Char.reduceToNat] at code
        omega
      · obtain ⟨first, following, split, leading⟩ :=
          inductionHypothesis (number / 10) (by omega) (by omega)
        rw [Nat.toDigits_of_base_le (by decide) (by omega), split]
        exact ⟨first, _, rfl, leading⟩

/-- The decimal digits of a number are a literal of it. -/
theorem natural_toDigits (number : Nat) : Natural (Nat.toDigits 10 number) number := by
  rcases Nat.eq_zero_or_pos number with rfl | positive
  · rw [Nat.toDigits_zero]
    exact .zero
  · have digits := digits_toDigits number
    obtain ⟨first, following, split, leading⟩ := leading_toDigits positive
    rw [split] at digits ⊢
    exact .positive digits leading

/-- The printed form of an integer is a literal of it. -/
theorem integer_toString (value : Int) : Integer (toString value).toList value := by
  rw [Int.toString_eq_repr, Int.repr_eq_if]
  by_cases unsigned : 0 ≤ value
  · have literal : Integer (Nat.toDigits 10 value.toNat) value.toNat :=
      .unsigned (natural_toDigits _)
    rw [Int.toNat_of_nonneg unsigned] at literal
    simpa [unsigned] using literal
  · have literal : Integer ('-' :: Nat.toDigits 10 (-value).toNat) (-((-value).toNat : Int)) :=
      .negative (natural_toDigits _) (by omega)
    rw [Int.toNat_of_nonneg (by omega), Int.neg_neg] at literal
    simpa [unsigned] using literal

/-- The printed form of a word is a value that means the word. -/
theorem value_toString (word : Int64) : Value (toString word.toInt).toList (.int word) := by
  have literal := Value.int (integer_toString word.toInt) word.le_toInt
    (by have := word.toInt_lt; omega)
  rwa [Int64.ofInt_toInt] at literal

/-! ## Strings -/

/-- The character that a number below sixteen is written with is its hexadecimal digit. -/
theorem hexDigit_digitChar {value : Nat} (small : value < 16) :
    HexDigit value.digitChar value := by
  have table : ∀ value : Fin 16,
      "0123456789abcdef".toList[value.val]? = some value.val.digitChar := by decide
  exact .inl (table ⟨value, small⟩)

/-- Each escape class of the printer is a spelling of the character it escapes. -/
theorem spelled_escape (character : Char) : Spelled (Json.escape character) character := by
  unfold Json.escape
  split
  case h_8 notQuote notBackslash _ _ _ _ _ =>
    split
    next control =>
      have small : character.toNat < 32 := by
        by_contra large
        exact (Json.not_lt_space_iff character).mpr (by omega) control
      have code := CodeUnit.mk (hexDigit_digitChar (by decide : 0 < 16))
        (hexDigit_digitChar (by decide : 0 < 16))
        (hexDigit_digitChar (by omega : character.toNat / 16 < 16))
        (hexDigit_digitChar (by omega : character.toNat % 16 < 16))
      have split : 0 * 0x1000 + 0 * 0x100 + character.toNat / 16 * 0x10 + character.toNat % 16 =
          character.toNat := by omega
      rw [split] at code
      exact .unit code
    next printable =>
      exact .raw ((Json.not_lt_space_iff character).mp printable) notQuote notBackslash
  all_goals exact .short (by decide)

/-- Escaped characters stand for the characters, inside a string. -/
theorem characters_flatMap_escape (characters : List Char) :
    Characters (characters.flatMap Json.escape) characters := by
  induction characters with
  | nil => exact .nil
  | cons character characters inductionHypothesis =>
      exact .cons (spelled_escape character) inductionHypothesis

/-- A quoted text is a value that means the text. -/
theorem value_quote (text : String) : Value (Json.quote text).toList (.str text) := by
  have literal := Value.str (characters_flatMap_escape text.toList)
  rw [String.ofList_toList] at literal
  rwa [Json.quote, String.toList_ofList]

/-! ## Expressions -/

/-- A value is a padded value with no spaces. -/
theorem padded_of_value {text : List Char} {expr : Expr} (value : Value text expr) :
    Padded text expr := by
  have padded := Padded.pad Json.blank_nil value Json.blank_nil
  simpa using padded

namespace Expr

mutual

/-- The text of an expression is a value that means the expression. -/
theorem value_text : ∀ expr : Expr, Value expr.text.toList expr
  | .int word => value_toString word
  | .str text => value_quote text
  | .bool true => .true
  | .bool false => .false
  | .list [] => .empty Json.blank_nil
  | .list (item :: following) => by
      have list := Value.list (items_itemTexts (item :: following) (by simp))
      simpa [text] using list

/-- The texts of items with commas between them are the inside of a list. -/
theorem items_itemTexts : ∀ items : List Expr, items ≠ [] →
    Items (",".intercalate (itemTexts items)).toList items
  | [item], _ => by
      have alone := Items.last (padded_of_value (value_text item))
      simpa [itemTexts] using alone
  | item :: next :: following, _ => by
      have more := Items.more (padded_of_value (value_text item))
        (items_itemTexts (next :: following) (by simp))
      simpa [itemTexts] using more

end

/-- The printed form of an expression is a program that means the expression. -/
theorem program_text (expr : Expr) : Program expr.text.toList expr :=
  padded_of_value (value_text expr)

/-- The printed form of an expression is decoded to the expression. -/
theorem decode_text (name : String) (expr : Expr) :
    (⟨name, expr.text⟩ : Source).decode = .ok expr :=
  (Source.decode_eq_ok_iff_program ⟨name, expr.text⟩ expr).mpr (program_text expr)

/-- No two expressions are printed alike. -/
theorem text_injective : Function.Injective text := by
  intro left right same
  have decoded := decode_text "" left
  rw [same, decode_text "" right] at decoded
  cases decoded
  rfl

/-- Decoding undoes printing, under whatever name the text is given. So printing
tells expressions apart, and a decoded source may be replaced by its written
expression. -/
theorem decode_undoes_text :
    (∀ (name : String) (expr : Expr), (⟨name, expr.text⟩ : Source).decode = .ok expr) ∧
      Function.Injective text ∧
      ∀ (source : Source) (expr : Expr), source.decode = .ok expr →
        ({ source with text := expr.text } : Source).decode = .ok expr :=
  ⟨decode_text, text_injective, fun source expr _ => decode_text source.name expr⟩

end Expr

end JsonForms
