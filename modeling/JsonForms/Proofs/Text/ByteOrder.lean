import Mathlib.Data.String.Basic

/-!
# Texts in the order of their bytes

A text is ordered by its code points or by the bytes of its UTF-8 form, and the two
orders are the same. For one code point this is so because the leading byte grows with
the number of bytes, and for as many bytes the bytes are the digits of the code point,
the highest ones first. For texts it is so because two different code points already
differ in order within their own bytes, whatever comes after these.

`encoding` tells the bytes of a code point as numbers by one rule for all lengths. That
the characters of a text are written so is `map_toNat_utf8EncodeChar`.
-/

namespace JsonForms.Text

/-- The code points of a text. -/
def codePoints (text : String) : List Nat := text.toList.map Char.toNat

/-- The bytes of the UTF-8 form of a text. -/
def bytes (text : String) : List UInt8 := text.toByteArray.data.toList

/-! ## Code points -/

/-- How many bytes follow the leading byte of a code point. -/
def trailingCount (point : Nat) : Nat :=
  if point ≤ 0x7f then 0 else if point ≤ 0x7ff then 1 else if point ≤ 0xffff then 2 else 3

/-- The bytes that follow the leading one. Each of them has six bits. -/
def trailing : Nat → Nat → List Nat
  | 0, _ => []
  | count + 1, point => trailing count (point / 64) ++ [0x80 + point % 64]

/-- The smallest leading byte that so many bytes follow. -/
def leadingBase : Nat → Nat
  | 0 => 0
  | 1 => 0xc0
  | 2 => 0xe0
  | _ => 0xf0

/-- The bytes of a code point. The leading one has the bits that are left. -/
def encoding (point : Nat) : List Nat :=
  (leadingBase (trailingCount point) + point / 64 ^ trailingCount point) ::
    trailing (trailingCount point) point

/-- Of two code points with as many bytes, those of the smaller one come first. -/
theorem leading_trailing_lt {point other : Nat} (less : point < other) (base count : Nat)
    (rest otherRest : List Nat) :
    (base + point / 64 ^ count) :: (trailing count point ++ rest) <
      (base + other / 64 ^ count) :: (trailing count other ++ otherRest) := by
  induction count generalizing point other rest otherRest with
  | zero =>
      refine .rel ?_
      rw [pow_zero, Nat.div_one, Nat.div_one]
      exact Nat.add_lt_add_left less base
  | succ count inductionHypothesis =>
      rw [trailing, trailing, List.append_assoc, List.append_assoc, pow_succ',
        ← Nat.div_div_eq_div_mul, ← Nat.div_div_eq_div_mul]
      obtain higher | ⟨same, lower⟩ : point / 64 < other / 64 ∨
          point / 64 = other / 64 ∧ point % 64 < other % 64 := by omega
      · exact inductionHypothesis higher _ _
      · rw [same, ← List.cons_append, ← List.cons_append]
        exact List.append_left_lt (.rel (Nat.add_lt_add_left lower _))

/-- More bytes have a larger leading byte. -/
theorem leading_lt_leading {point other : Nat} (less : trailingCount point < trailingCount other) :
    leadingBase (trailingCount point) + point / 64 ^ trailingCount point <
      leadingBase (trailingCount other) + other / 64 ^ trailingCount other := by
  revert less
  unfold trailingCount
  split_ifs <;> simp only [leadingBase] <;> omega

/-- Greater code points have no fewer bytes. -/
theorem trailingCount_le {point other : Nat} (less : point < other) :
    trailingCount point ≤ trailingCount other := by
  unfold trailingCount
  split_ifs <;> omega

/-- The bytes of different code points differ in order, whatever follows them. -/
theorem encoding_append_lt {point other : Nat} (less : point < other) (rest otherRest : List Nat) :
    encoding point ++ rest < encoding other ++ otherRest := by
  rw [encoding, encoding, List.cons_append, List.cons_append]
  obtain fewer | same := Nat.lt_or_eq_of_le (trailingCount_le less)
  · exact .rel (leading_lt_leading fewer)
  · rw [same]
    exact leading_trailing_lt less _ _ rest otherRest

/-- Code points in order are encoded in order. -/
theorem strictMono_encodings : StrictMono fun points : List Nat => points.flatMap encoding := by
  intro points others less
  induction less with
  | nil => exact .nil
  | rel less => exact encoding_append_lt less _ _
  | cons _ inductionHypothesis => exact List.append_left_lt inductionHypothesis

/-! ## Texts -/

/-- The UTF-8 form of a character is the encoding of its code point. -/
theorem map_toNat_utf8EncodeChar (character : Char) :
    (String.utf8EncodeChar character).map UInt8.toNat = encoding character.toNat := by
  have value : character.val.toNat = character.toNat := rfl
  have within : character.toNat < 0x110000 := by
    obtain below | ⟨_, above⟩ := character.valid
    · exact Nat.lt_trans below (by decide)
    · exact above
  rw [String.utf8EncodeChar, value, encoding, trailingCount]
  split_ifs
  all_goals
    simp only [leadingBase, trailing, List.map_cons, List.map_nil, List.nil_append,
      List.cons_append, List.cons.injEq, and_true, UInt8.toNat_ofNat']
    omega

/-- The bytes of a text are the encodings of its code points, in order. -/
theorem map_toNat_bytes (text : String) :
    (bytes text).map UInt8.toNat = (codePoints text).flatMap encoding := by
  rw [bytes, ← String.utf8Encode_toList, List.utf8Encode, List.toList_data_toByteArray,
    List.map_flatMap, codePoints, List.flatMap_map]
  exact List.flatMap_congr fun character _ => map_toNat_utf8EncodeChar character

/-- Lists are in order as the lists of numbers for their elements are. -/
theorem map_lt_map_iff {α : Type} [LT α] {number : α → Nat} (injective : number.Injective)
    (ordered : ∀ {first second}, number first < number second ↔ first < second)
    {list other : List α} : list.map number < other.map number ↔ list < other := by
  induction list generalizing other with
  | nil => cases other <;> simp
  | cons first list inductionHypothesis =>
      cases other with
      | nil => simp
      | cons second other =>
          rw [List.map_cons, List.map_cons, List.cons_lt_cons_iff, List.cons_lt_cons_iff, ordered,
            inductionHypothesis, injective.eq_iff]

/-- Texts are ordered by their code points. -/
theorem lt_iff_codePoints_lt {text other : String} :
    text < other ↔ codePoints text < codePoints other :=
  (map_lt_map_iff (fun _ _ same => Char.toNat_inj.mp same) Iff.rfl).symm

/-- Texts are in order as their bytes are. -/
theorem bytes_lt_iff {text other : String} : bytes text < bytes other ↔ text < other := by
  rw [lt_iff_codePoints_lt, ← map_lt_map_iff (fun _ _ same => UInt8.toNat_inj.mp same) Iff.rfl,
    map_toNat_bytes, map_toNat_bytes]
  exact strictMono_encodings.lt_iff_lt

/-- Texts are ordered as their bytes are. -/
theorem bytes_le_iff {text other : String} : bytes text ≤ bytes other ↔ text ≤ other := by
  rw [← not_lt, ← bytes_lt_iff]
  rfl

/-- Texts are ordered as their code points are. -/
theorem codePoints_le_iff {text other : String} :
    codePoints text ≤ codePoints other ↔ text ≤ other := by
  rw [← not_lt, ← not_lt, lt_iff_codePoints_lt]

/-- The code points of two texts in a row are those of the one and then those of the other. -/
theorem codePoints_append (text more : String) :
    codePoints (text ++ more) = codePoints text ++ codePoints more := by
  rw [codePoints, String.toList_append, List.map_append, codePoints, codePoints]

/-- A text comes before every longer one that starts with it. -/
theorem lt_append (text : String) {more : String} (nonempty : more ≠ "") : text < text ++ more := by
  have notNil : more.toList ≠ [] := mt String.toList_eq_nil_iff.mp nonempty
  obtain ⟨first, following, written⟩ := List.exists_cons_of_ne_nil notNil
  rw [lt_iff_codePoints_lt, codePoints_append]
  calc
    codePoints text = codePoints text ++ [] := (List.append_nil _).symm
    _ < codePoints text ++ codePoints more := by
      refine List.append_left_lt ?_
      rw [codePoints, written]
      exact .nil

end JsonForms.Text
