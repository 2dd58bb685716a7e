import JsonForms.Proofs.Decimal.Range
import JsonForms.Proofs.Grammar.Places
import JsonForms.Proofs.Grammar.RoundTrip

/-!
# Integer literals

A literal of a word is that word in the program, and all others are refused as numbers, but for
two kinds. Negative zero is read as a double and refused, though its value is a word. A literal
from `Json.tooLarge` on is beyond all doubles and is reported as a fault in the text, though the
text is JSON. Where in the program the literal stands makes no difference.
-/

namespace JsonForms

open Grammar Text

namespace Grammar

/-- An integer literal of JSON: a numeral, with a minus sign before it or without. -/
inductive Literal : List Char → Int → Prop where
  | unsigned {text number} (numeral : Natural text number) : Literal text number
  | negative {text number} (numeral : Natural text number) : Literal ('-' :: text) (-number)

/-- Zero has one numeral. -/
theorem Natural.eq_zero {text : List Char} (natural : Natural text 0) : text = ['0'] := by
  obtain ⟨first, following, rfl, isDigit, allDigits, zero, value⟩ :=
    (Json.natural_iff _ _).mp natural
  have least := (Json.decimalValue_bounds allDigits (digitValue first)).1
  rw [decimalValue, Nat.zero_mul, Nat.zero_add] at value
  have none : digitValue first = 0 := by
    have power : 0 < 10 ^ following.length := Nat.pow_pos (by decide)
    rw [value] at least
    exact (Nat.mul_eq_zero.mp (Nat.le_zero.mp least)).resolve_right power.ne'
  have leading : Digit first 0 := (Json.digit_iff first 0).mpr ⟨isDigit, none⟩
  obtain rfl : '0' = first := Option.some.inj leading
  rw [zero rfl]

/-- All literals but negative zero are integers of programs. -/
theorem Literal.integer {text : List Char} {value : Int} (literal : Literal text value)
    (signed : text ≠ ['-', '0']) : Integer text value := by
  cases literal with
  | unsigned numeral => exact .unsigned numeral
  | negative numeral =>
      refine .negative numeral fun zero => signed ?_
      subst zero
      rw [numeral.eq_zero]

end Grammar

namespace Json

/-- A literal begins with a character that is no space and closes no list. -/
theorem starts_of_literal {negative : Bool} {text : List Char} {number : Nat}
    (natural : Natural text number) : Starts (withSign negative text) := by
  cases negative with
  | true => exact ⟨_, _, rfl, by decide, by decide⟩
  | false =>
      obtain ⟨first, following, rfl, isDigit, _⟩ := (natural_iff _ _).mp natural
      refine ⟨first, following, rfl, isSpace_of_isDigit isDigit, ?_⟩
      rintro rfl
      cases isDigit

/-- A literal is refused if its numeral has a value that is no word. -/
theorem refused_of_value {negative : Bool} {text : List Char} {number : Nat} {result : Number}
    (natural : Natural text number)
    (value : (⟨negative, text, [], none⟩ : Numeral).value = .ok result)
    (noWord : result.word? = none) :
    Rejected (withSign negative text) (.refused (.number result)) where
  starts := starts_of_literal natural
  rejects := by
    intro before rest input front delimited split
    exact ⟨.number result, reads_of_natural front natural value delimited split,
      by rw [Expr.ofJson, noWord]⟩

/-- Reading a literal stops if its numeral has no value. -/
theorem unreadable_of_value {negative : Bool} {text unread : List Char} {number : Nat}
    (natural : Natural text number)
    (value : (⟨negative, text, [], none⟩ : Numeral).value = .error unread) :
    Rejected (withSign negative text) (.unreadable .numberOutOfRange) where
  starts := starts_of_literal natural
  rejects := by
    intro before rest input front delimited split
    obtain ⟨fits, read⟩ := readValue_of_natural front natural split
    obtain ⟨shorter, scanned⟩ := @scanNumeral_of_natural negative _ _ _ natural delimited
    rw [read]
    simp only [readNumber, scanned, value]
    exact ⟨_, rfl, rfl⟩

/-- Negative zero is a double. -/
theorem refused_negative_zero : Rejected ['-', '0'] (.refused (.number (.double (-0)))) :=
  @refused_of_value true ['0'] 0 _ .zero (value_of_natural .zero (by decide)) rfl

/-- A word outside the signed words is the integer of none. -/
theorem word?_ofWord_of_outside {numeral : Numeral} {number : Nat}
    (outside : 0x8000000000000000 ≤ number)
    (below : numeral.negative = true → number ≠ 0x8000000000000000) :
    (numeral.ofWord number).word? = none := by
  rw [Numeral.ofWord]
  split_ifs with sign inside
  · rw [Number.word?, if_neg (by omega)]
  · rw [Bool.not_eq_true', Bool.not_eq_false] at sign
    have differs := below sign
    omega
  · exact word?_signed _ _

/-- A literal outside the signed words is refused, unless it is too large. -/
theorem refused_of_outside {negative : Bool} {text : List Char} {number : Nat}
    (natural : Natural text number) (outside : 0x8000000000000000 ≤ number)
    (below : negative = true → number ≠ 0x8000000000000000) (small : number < tooLarge) :
    ∃ result, Rejected (withSign negative text) (.refused (.number result)) := by
  by_cases fits : number ≤ greatestSignificand
  · exact ⟨_, refused_of_value natural (value_of_natural natural fits)
      (word?_ofWord_of_outside outside below)⟩
  · obtain ⟨first, following, rfl, isDigit, allDigits, _, rfl⟩ := (natural_iff _ _).mp natural
    obtain ⟨magnitude, value⟩ := (@value_of_long negative _
      (List.forall_mem_cons.mpr ⟨isDigit, allDigits⟩) (Nat.lt_of_not_le fits)).1 small
    exact ⟨_, refused_of_value natural value (word?_signed _ _)⟩

/-- Reading stops behind a literal that is too large. -/
theorem unreadable_of_tooLarge {negative : Bool} {text : List Char} {number : Nat}
    (natural : Natural text number) (large : tooLarge ≤ number) :
    Rejected (withSign negative text) (.unreadable .numberOutOfRange) := by
  have long : greatestSignificand < tooLarge := by decide +kernel
  obtain ⟨first, following, rfl, isDigit, allDigits, _, rfl⟩ := (natural_iff _ _).mp natural
  exact unreadable_of_value natural ((@value_of_long negative _
    (List.forall_mem_cons.mpr ⟨isDigit, allDigits⟩) (long.trans_le large)).2 large)

end Json

namespace Source

/-- A literal in a place of a program is an integer of the program if it is a word, but for
negative zero. It is refused otherwise, unless it is too large to be read. -/
theorem integers_are_classified (source : Source) {before front text back after : List Char}
    {fill : Expr → Expr} {value : Int} (place : Place front back fill)
    (literal : Literal text value) (leading : Blank before) (trailing : Blank after)
    (whole : source.text.toList = before ++ (front ++ text ++ back) ++ after) :
    (-0x8000000000000000 ≤ value ∧ value ≤ 0x7FFFFFFFFFFFFFFF → text ≠ ['-', '0'] →
      source.decode = .ok (fill (.int (Int64.ofInt value)))) ∧
    (text = ['-', '0'] → source.decode = .error (.refused (.number (.double (-0))))) ∧
    (¬ (-0x8000000000000000 ≤ value ∧ value ≤ 0x7FFFFFFFFFFFFFFF) →
      (value.natAbs < Json.tooLarge →
        ∃ number, source.decode = .error (.refused (.number number))) ∧
      (Json.tooLarge ≤ value.natAbs → ∃ position excerpt,
        source.decode =
          .error (.unreadable source.name position .numberOutOfRange excerpt))) := by
  refine ⟨?_, ?_, ?_⟩
  · rintro ⟨least, greatest⟩ signed
    have inside := Value.int (literal.integer signed) least greatest
    rw [decode_eq_ok_iff_program, whole]
    exact .pad leading (value_of_place place inside) trailing
  · rintro rfl
    exact Json.decode_of_rejected leading (Json.refused_negative_zero.of_place place) trailing whole
  · intro outside
    obtain ⟨negative, digits, number, natural, rfl, size, wide, below⟩ : ∃ negative digits number,
        Natural digits number ∧ text = Json.withSign negative digits ∧ value.natAbs = number ∧
          0x8000000000000000 ≤ number ∧ (negative = true → number ≠ 0x8000000000000000) := by
      cases literal with
      | unsigned numeral => exact ⟨false, _, _, numeral, rfl, by omega, by omega, nofun⟩
      | negative numeral => exact ⟨true, _, _, numeral, rfl, by omega, by omega, by omega⟩
    rw [size]
    constructor
    · intro small
      obtain ⟨result, rejected⟩ := Json.refused_of_outside natural wide below small
      exact ⟨result, Json.decode_of_rejected leading (rejected.of_place place) trailing whole⟩
    · intro large
      have rejected := @Json.unreadable_of_tooLarge negative _ _ natural large
      exact Json.decode_of_rejected leading (rejected.of_place place) trailing whole

/-- The greatest word in a list of a list, and the integer after it in the same place. -/
theorem integers_are_classified_nested :
    Source.decode ⟨"p", "[1, [9223372036854775807 ]]"⟩ =
        .ok (.list [.int 1, .list [.int 9223372036854775807]]) ∧
      ∃ number, Source.decode ⟨"p", "[1, [9223372036854775808 ]]"⟩ =
        .error (.refused (.number number)) := by
  have digit : Digit '1' 1 := rfl
  have one : Value ['1'] (.int 1) :=
    .int (.unsigned (.positive (.one digit) (by decide))) (by decide) (by decide)
  have blank : Blank [' '] := by simp [Blank]
  have place : Place ['[', '1', ',', ' ', '['] [' ', ']', ']']
      fun expr => .list [.int 1, .list [expr]] :=
    .item (.cons (.pad Json.blank_nil one Json.blank_nil) .nil) blank
      (.item .nil Json.blank_nil .here (.close blank)) (.close Json.blank_nil)
  have greatest := natural_toDigits 9223372036854775807
  have next := natural_toDigits 9223372036854775808
  constructor
  · exact (integers_are_classified ⟨"p", "[1, [9223372036854775807 ]]"⟩ place
      (.unsigned greatest) Json.blank_nil Json.blank_nil (by decide +kernel)).1 (by decide)
      (by decide +kernel)
  · exact ((integers_are_classified ⟨"p", "[1, [9223372036854775808 ]]"⟩ place
      (.unsigned next) Json.blank_nil Json.blank_nil (by decide +kernel)).2.2 (by decide)).1
      (by decide +kernel)

/-- Negative zero is a literal of a word and refused, and the first literal of 310 digits is
reported as a fault in the text. -/
theorem literals_are_not_classified_by_value :
    (Literal ['-', '0'] 0 ∧
      Source.decode ⟨"p", "-0"⟩ = .error (.refused (.number (.double (-0))))) ∧
    Literal ('1' :: List.replicate 309 '0') (10 ^ 309 : Nat) ∧
      ∃ position excerpt,
        Source.decode ⟨"p", String.ofList ('1' :: List.replicate 309 '0')⟩ =
          .error (.unreadable "p" position .numberOutOfRange excerpt) := by
  have long : Natural ('1' :: List.replicate 309 '0') (10 ^ 309) :=
    (Json.natural_iff _ _).mpr ⟨'1', _, rfl, by decide,
      fun digit member => List.eq_of_mem_replicate member ▸ by decide, by decide,
      by decide +kernel⟩
  have large : Json.tooLarge ≤ 10 ^ 309 := by decide +kernel
  have rejected := @Json.unreadable_of_tooLarge false _ _ long large
  refine ⟨⟨.negative .zero, ?_⟩, .unsigned long, ?_⟩
  · exact Json.decode_of_rejected Json.blank_nil Json.refused_negative_zero Json.blank_nil
      (by decide)
  · exact Json.decode_of_rejected Json.blank_nil rejected Json.blank_nil
      (by rw [String.toList_ofList, List.nil_append, List.append_nil]; rfl)

end Source

end JsonForms
