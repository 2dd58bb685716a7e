/-!
# Sizes in bytes

Texts are read character by character, while positions and excerpts count the
bytes of the UTF-8 form.
-/

namespace JsonForms.Text

/-- The number of bytes of the UTF-8 form of some characters. -/
def byteCount : List Char → Nat
  | [] => 0
  | character :: following => character.utf8Size + byteCount following

/-- No characters have no bytes. -/
@[simp] theorem byteCount_nil : byteCount [] = 0 := rfl

/-- The bytes of characters are those of the first one and those of the others. -/
@[simp] theorem byteCount_cons (character : Char) (following : List Char) :
    byteCount (character :: following) = character.utf8Size + byteCount following := rfl

/-- The bytes of two parts are counted one after the other. -/
@[simp] theorem byteCount_append (front back : List Char) :
    byteCount (front ++ back) = byteCount front + byteCount back := by
  induction front with
  | nil => simp
  | cons character following inductionHypothesis =>
      rw [List.cons_append, byteCount_cons, inductionHypothesis, byteCount_cons, Nat.add_assoc]

end JsonForms.Text
