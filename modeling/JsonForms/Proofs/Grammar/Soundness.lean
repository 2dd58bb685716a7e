import JsonForms.Proofs.Grammar.Numerals
import JsonForms.Proofs.Grammar.Strings
import Mathlib.Data.List.Forall2

/-!
# Soundness of reading

What the readers take off a text is derived by the grammar, provided that the
value read there means an expression. The proof follows the recursion of the
readers; `Json.Following` is what the grammar still derives after an item of a
list, where the reader of items starts.
-/

namespace JsonForms

open Grammar Json

namespace Expr

/-- The items of a list are converted one by one, in their order. -/
theorem ofItems_eq_ok_iff {reversed exprs : List Expr} {items : List Json} :
    ofItems reversed items = .ok exprs ↔
      ∃ tail, List.Forall₂ (fun json expr => ofJson json = .ok expr) items tail ∧
        reversed.reverse ++ tail = exprs := by
  induction items generalizing reversed with
  | nil => simp [ofItems, List.forall₂_nil_left_iff]
  | cons item following inductionHypothesis =>
      rw [ofItems]
      cases converted : ofJson item with
      | error refusal => simp [converted, List.forall₂_cons_left_iff]
      | ok expr =>
          simp only [inductionHypothesis, List.forall₂_cons_left_iff, converted,
            Except.ok.injEq]
          constructor
          · rintro ⟨tail, all, rfl⟩
            exact ⟨expr :: tail, ⟨expr, tail, rfl, all, rfl⟩, by simp⟩
          · rintro ⟨_, ⟨_, tail, rfl, all, rfl⟩, rfl⟩
            exact ⟨tail, all, by simp⟩

/-- An array stands for a list exactly when its elements stand for the elements of the list, one by
one. -/
theorem ofJson_array_eq_ok_iff {items : List Json} {expr : Expr} :
    ofJson (.array items) = .ok expr ↔
      ∃ exprs, List.Forall₂ (fun json expr => ofJson json = .ok expr) items exprs ∧
        .list exprs = expr := by
  rw [ofJson]
  cases converted : ofItems [] items with
  | error refusal =>
      simp only [Except.map, reduceCtorEq, false_iff]
      rintro ⟨exprs, all, _⟩
      rw [ofItems_eq_ok_iff.mpr ⟨exprs, all, rfl⟩] at converted
      cases converted
  | ok exprs =>
      obtain ⟨tail, all, rfl⟩ := ofItems_eq_ok_iff.mp converted
      simp only [Except.map, Except.ok.injEq]
      constructor
      · rintro rfl
        exact ⟨tail, all, rfl⟩
      · rintro ⟨exprs, others, rfl⟩
        rw [ofItems_eq_ok_iff.mpr ⟨exprs, others, rfl⟩] at converted
        cases converted
        rfl

end Expr

namespace Json

/-- What may stand between an item and the closing bracket: spaces, and a comma
with the items after it. -/
inductive Following : List Char → List Expr → Prop where
  | close {blank} (spaces : Blank blank) : Following blank []
  | comma {blank text items} (spaces : Blank blank) (rest : Items text items) :
      Following (blank ++ ',' :: text) items

/-- A first value, with what follows it up to the end of a list, is the text of items. -/
theorem items_of_following {before text after : List Char} {item : Expr} {items : List Expr}
    (front : Blank before) (value : Value text item) (following : Following after items) :
    Items (before ++ text ++ after) (item :: items) := by
  cases following with
  | close spaces => exact .last (.pad front value spaces)
  | @comma blank text _ spaces rest =>
      have derived := Items.more (.pad front value spaces) rest
      simpa using derived

/-- The letters of a word are taken as they are. -/
theorem reads_readWord_iff {bound : Nat} {value found : Json} {word input rest : List Char}
    {fits : input.length < bound} :
    Reads (readWord value word input fits) found rest ↔ input = word ++ rest ∧ value = found := by
  induction word generalizing input with
  | nil => simp [readWord, and_comm]
  | cons letter letters inductionHypothesis =>
      cases input with
      | nil => simp [readWord]
      | cons character following =>
          rw [readWord]
          split
          next same => simp [same, inductionHypothesis]
          next differ => simp [differ]

/-- A number that means an expression has an integer literal for its text. -/
theorem value_of_readNumber {negative : Bool} {input rest : List Char} {number : Number}
    {expr : Expr} (read : Reads (readNumber negative input) number rest)
    (means : Expr.ofJson (.number number) = .ok expr) :
    ∃ text, input = text ++ rest ∧ Value (withSign negative text) expr := by
  rw [Expr.ofJson] at means
  split at means
  next word isWord =>
    cases means
    obtain ⟨text, value, split, literal, ⟨least, greatest⟩, rfl⟩ :=
      integer_of_readNumber read isWord
    exact ⟨text, split, .int literal least greatest⟩
  · cases means

mutual

/-- What is read as a value that means an expression is derived with that meaning. -/
theorem value_of_readValue {input rest : List Char} {json : Json} {expr : Expr}
    (read : Reads (readValue input) json rest) (means : Expr.ofJson json = .ok expr) :
    ∃ before text, input = before ++ text ++ rest ∧ Blank before ∧ Value text expr := by
  rw [readValue] at read
  -- The first visible character decides: none, n, t, f, a quote, a minus sign, an opening
  -- bracket, an opening brace, or another one, which has to be a digit.
  split at read
  · simp at read
  · obtain ⟨rfl, rfl⟩ := reads_readWord_iff.mp read
    cases means
  next visible =>
    obtain ⟨before, blank, rfl⟩ := split_of_nextVisible visible
    obtain ⟨rfl, rfl⟩ := reads_readWord_iff.mp read
    cases means
    exact ⟨before, _, by simp, blank, .true⟩
  next visible =>
    obtain ⟨before, blank, rfl⟩ := split_of_nextVisible visible
    obtain ⟨rfl, rfl⟩ := reads_readWord_iff.mp read
    cases means
    exact ⟨before, _, by simp, blank, .false⟩
  next visible =>
    obtain ⟨before, blank, rfl⟩ := split_of_nextVisible visible
    obtain ⟨_, inner, rfl⟩ := reads_map_iff.mp read
    obtain ⟨body, characters, rfl, inside, rfl⟩ := reads_readQuoted_iff.mp inner
    cases means
    exact ⟨before, _, by simp, blank, .str inside⟩
  next visible =>
    obtain ⟨before, blank, rfl⟩ := split_of_nextVisible visible
    obtain ⟨number, inner, rfl⟩ := reads_map_widen_iff.mp read
    obtain ⟨text, split, value⟩ := value_of_readNumber inner means
    exact ⟨before, _, by simp [split, withSign], blank, value⟩
  next rest' shorter visible =>
    obtain ⟨before, blank, split⟩ := split_of_nextVisible visible
    split at read
    · simp at read
    next closing =>
      obtain ⟨inside, spaces, rfl⟩ := split_of_nextVisible closing
      obtain ⟨rfl, rfl⟩ := reads_ok_iff.mp read
      obtain ⟨_, none, rfl⟩ := Expr.ofJson_array_eq_ok_iff.mp means
      cases none
      exact ⟨before, _, by simp [split], blank, .empty spaces⟩
    · split at read
      · simp at read
      next item afterItem shorterItem first =>
        obtain ⟨_, others, rfl⟩ := reads_map_iff.mp read
        obtain ⟨tail, rfl, derive⟩ := following_of_readItems others
        obtain ⟨exprs, all, rfl⟩ := Expr.ofJson_array_eq_ok_iff.mp means
        cases all with
        | cons itemMeans all =>
            obtain ⟨spaces, text, rfl, front, value⟩ := value_of_readValue ⟨_, first⟩ itemMeans
            obtain ⟨after, rfl, following⟩ := derive all
            refine ⟨before, _, ?_, blank, .list (items_of_following front value following)⟩
            simp [split]
  next visible =>
    split at read
    · simp at read
    · obtain ⟨rfl, rfl⟩ := reads_ok_iff.mp read
      cases means
    · obtain ⟨_, _, rfl⟩ := reads_map_iff.mp read
      cases means
    · simp at read
  next visible =>
    obtain ⟨before, blank, rfl⟩ := split_of_nextVisible visible
    split at read
    · obtain ⟨number, inner, rfl⟩ := reads_map_widen_iff.mp read
      obtain ⟨text, split, value⟩ := value_of_readNumber inner means
      exact ⟨before, _, by simp [split, withSign], blank, value⟩
    · simp at read
termination_by input.length

/-- What is read after an item is derived up to the closing bracket, whatever
expressions the values read there mean. -/
theorem following_of_readItems {bound : Nat} {reversed jsons : List Json}
    {input rest : List Char} {fits : input.length ≤ bound}
    (read : Reads (readItems bound reversed input fits) jsons rest) :
    ∃ tail, jsons = reversed.reverse ++ tail ∧
      ∀ {exprs}, List.Forall₂ (fun json expr => Expr.ofJson json = .ok expr) tail exprs →
        ∃ text, input = text ++ ']' :: rest ∧ Following text exprs := by
  rw [readItems] at read
  split at read
  · simp at read
  next visible =>
    obtain ⟨blank, spaces, rfl⟩ := split_of_nextVisible visible
    obtain ⟨rfl, rfl⟩ := reads_ok_iff.mp read
    refine ⟨[], by simp, fun none => ?_⟩
    cases none
    exact ⟨blank, rfl, .close spaces⟩
  next afterComma shorter visible =>
    obtain ⟨blank, spaces, split⟩ := split_of_nextVisible visible
    split at read
    · simp at read
    · split at read
      · simp at read
      next item afterItem shorterItem first =>
        obtain ⟨tail, rfl, derive⟩ := following_of_readItems read
        refine ⟨item :: tail, by simp, fun all => ?_⟩
        cases all with
        | cons itemMeans all =>
            obtain ⟨before, text, rfl, front, value⟩ := value_of_readValue ⟨_, first⟩ itemMeans
            obtain ⟨after, rfl, following⟩ := derive all
            refine ⟨_, ?_, .comma spaces (items_of_following front value following)⟩
            simp [split]
  · simp at read
termination_by input.length

end
end Json

end JsonForms
