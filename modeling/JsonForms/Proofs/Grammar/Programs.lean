import JsonForms.Expr.Decode
import JsonForms.Proofs.Grammar.Completeness
import JsonForms.Proofs.Grammar.Lexemes
import JsonForms.Proofs.Grammar.Soundness

/-!
# Decoding accepts the grammar

The decoder against the grammar, for whole sources. The name of a source is
used in its faults only, so it plays no part here.
-/

namespace JsonForms

open Grammar

/-- A text that reads as the value of an expression is a program that means it. -/
theorem Json.program_of_read {text : List Char} {json : Json} {expr : Expr}
    (read : Json.read text = .ok json) (means : Expr.ofJson json = .ok expr) :
    Program text expr := by
  unfold Json.read at read
  split at read
  · cases read
  next value rest shorter first =>
    split at read
    next unseen =>
      cases read
      obtain ⟨before, inside, split, front, derived⟩ := value_of_readValue ⟨shorter, first⟩ means
      rw [split]
      exact .pad front derived (blank_of_nextVisible_eq_none unseen)
    next => cases read

/-- A program reads as some value of its meaning. -/
theorem Json.read_of_program {text : List Char} {expr : Expr} (program : Program text expr) :
    ∃ json, Json.read text = .ok json ∧ Expr.ofJson json = .ok expr := by
  obtain @⟨before, inside, after, _, front, derived, back⟩ := program
  obtain ⟨json, ⟨shorter, first⟩, means⟩ :=
    readValue_of_value derived front (delimited_of_end back) rfl
  refine ⟨json, ?_, means⟩
  rw [Json.read, first]
  simp only [nextVisible_of_blank (Nat.le_refl _) back]

namespace Source

/-- Decoding gives an expression exactly when a value is read that stands for it. -/
theorem decode_eq_ok_iff_read (source : Source) (expr : Expr) :
    source.decode = .ok expr ↔
      ∃ json, Json.read source.text.toList = .ok json ∧ Expr.ofJson json = .ok expr := by
  unfold decode
  constructor
  · intro decoded
    split at decoded
    · cases decoded
    next json read =>
      split at decoded
      · cases decoded
      next expr means =>
        cases decoded
        exact ⟨json, read, means⟩
  · rintro ⟨json, read, means⟩
    simp only [read, means]

/-- A source decodes to the expressions that the grammar gives its text. -/
theorem decode_eq_ok_iff_program (source : Source) (expr : Expr) :
    source.decode = .ok expr ↔ Program source.text.toList expr := by
  rw [decode_eq_ok_iff_read]
  constructor
  · rintro ⟨json, read, means⟩
    exact Json.program_of_read read means
  · exact Json.read_of_program

/-- Decoding accepts exactly the programs of the grammar, each with its meaning,
and what it accepts has only truth values and integer literals of signed words
between its brackets, commas, spaces and strings. -/
theorem decode_accepts_exactly_the_grammar (source : Source) (expr : Expr) :
    (source.decode = .ok expr ↔ Program source.text.toList expr) ∧
      (source.decode = .ok expr → ∀ lexeme ∈ lexemes source.text.toList, Lexeme lexeme) := by
  refine ⟨decode_eq_ok_iff_program source expr, fun decoded => ?_⟩
  exact lexeme_of_program ((decode_eq_ok_iff_program source expr).mp decoded)

end Source

end JsonForms
