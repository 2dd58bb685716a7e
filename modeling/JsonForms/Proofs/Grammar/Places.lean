import JsonForms.Proofs.Decoding.Refusals
import JsonForms.Proofs.Grammar.Programs

/-!
# Places in a program

A place in a program is where a value of it stands: the program itself, or an item of a list that
stands in a place. `Grammar.Place` gives the texts on both sides of it, so that any text can be
put there. A value makes the program a value again. A text that is none, because reading it stops
or what is read of it is refused, is what the program is rejected for: everything before it is
read and means something.
-/

namespace JsonForms

open Grammar

namespace Grammar

/-- Padded values with a comma behind each of them. -/
inductive Leading : List Char → List Expr → Prop where
  | nil : Leading [] []
  | cons {text item following items} (value : Padded text item) (rest : Leading following items) :
      Leading (text ++ ',' :: following) (item :: items)

/-- The texts before and behind a place in a value, and the expression that the value means
when an expression is put there. -/
inductive Place : List Char → List Char → (Expr → Expr) → Prop where
  | here : Place [] [] id
  | item {earlier items blank front back fill later others} (leading : Leading earlier items)
      (spaces : Blank blank) (inside : Place front back fill)
      (following : Json.Following later others) :
      Place ('[' :: (earlier ++ blank ++ front)) (back ++ later ++ [']'])
        fun expr => .list (items ++ fill expr :: others)

/-- Items behind leading ones are items together with them. -/
theorem items_of_leading {earlier text : List Char} {items others : List Expr}
    (leading : Leading earlier items) (rest : Items text others) :
    Items (earlier ++ text) (items ++ others) := by
  induction leading with
  | nil => exact rest
  | cons value _ inductionHypothesis =>
      have derived := Items.more value inductionHypothesis
      simpa using derived

/-- A value in a place makes a value. -/
theorem value_of_place {front text back : List Char} {fill : Expr → Expr} {expr : Expr}
    (place : Place front back fill) (value : Value text expr) :
    Value (front ++ text ++ back) (fill expr) := by
  induction place with
  | here => simpa using value
  | item leading spaces _ following inductionHypothesis =>
      have inside := Json.items_of_following spaces inductionHypothesis following
      have derived := Value.list (items_of_leading leading inside)
      simpa using derived

end Grammar

namespace Json

/-! ## Reading up to an item -/

/-- Leading items begin with a value, and without any the text behind them does. -/
theorem opens_of_leading {earlier inside : List Char} {items : List Expr}
    (leading : Leading earlier items) (opens : Opens inside) : Opens (earlier ++ inside) := by
  cases leading with
  | nil => exact opens
  | cons padded =>
      rw [List.append_assoc]
      exact opens_of_padded padded _

/-- Some trees mean some expressions, one by one. -/
abbrev Mean (jsons : List Json) (exprs : List Expr) : Prop :=
  List.Forall₂ (fun json expr => Expr.ofJson json = .ok expr) jsons exprs

/-- The values before an item are read, and reading goes on with the item. -/
theorem GoesOn.past_leading {earlier inside : List Char} {items : List Expr} {bound : Nat}
    {reading : Reading (List Json) bound} {reversed : List Json}
    (leading : Leading earlier items) (opens : Opens inside)
    (goesOn : GoesOn reading reversed (earlier ++ inside)) :
    ∃ jsons, Mean jsons items ∧ GoesOn reading (jsons.reverse ++ reversed) inside := by
  induction leading generalizing reversed with
  | nil => exact ⟨[], .nil, goesOn⟩
  | @cons _ item following items padded rest inductionHypothesis =>
      obtain @⟨before, text, after, _, front, value, back⟩ := padded
      obtain ⟨json, ⟨shorter, read⟩, itemMeans⟩ :=
        readValue_of_value value front (delimited_of_blank back (delimited_cons (.inl rfl)))
          (by simp : before ++ text ++ after ++ ',' :: following ++ inside =
            before ++ text ++ (after ++ ',' :: (following ++ inside)))
      obtain ⟨fits, rfl⟩ := goesOn.reads read
      obtain ⟨jsons, means, later⟩ :=
        inductionHypothesis (readItems_of_comma back (opens_of_leading rest opens) rfl fits)
      exact ⟨json :: jsons, .cons itemMeans means, by simpa using later⟩

/-- What follows an item is read to the end of the list. -/
theorem readItems_of_following {later rest : List Char} {others : List Expr}
    (following : Following later others) :
    ∃ jsons, Mean jsons others ∧
      ∀ (bound : Nat) (reversed : List Json) (fits : (later ++ ']' :: rest).length ≤ bound),
        Reads (readItems bound reversed (later ++ ']' :: rest) fits)
          (reversed.reverse ++ jsons) rest := by
  cases following with
  | close spaces =>
      refine ⟨[], .nil, fun bound reversed fits => ?_⟩
      obtain ⟨_, closing⟩ := nextVisible_of_split (Nat.le_refl _)
        (rfl : later ++ ']' :: rest = _) spaces (by decide)
      rw [readItems, closing]
      simp
  | @comma blank text _ spaces items =>
      obtain ⟨json, jsons, middle, shorter, first, means, tail⟩ :=
        readItems_of_items items rest rfl
      refine ⟨json :: jsons, means, fun bound reversed fits => ?_⟩
      have comma := @readItems_of_comma bound reversed _ _ _ spaces
        (opens_of_items items (']' :: rest)) (List.append_assoc _ _ _) fits
      obtain ⟨fitsMiddle, behind⟩ := comma.reads first
      rw [behind]
      simpa using tail bound (json :: reversed) fitsMiddle

/-! ## Texts that are no values -/

/-- Why a text is no value of a program: reading it stops, or what is read of it is refused. -/
inductive Rejection where
  | unreadable (complaint : Complaint)
  | refused (refusal : Refusal)

/-- Reading a value stops with a complaint, or leaves a rest behind a tree that is refused. -/
def Rejects {bound : Nat} (reading : Reading Json bound) (rest : List Char) : Rejection → Prop
  | .unreadable complaint => ∃ fault, reading = .error fault ∧ fault.complaint = complaint
  | .refused refusal => ∃ json, Reads reading json rest ∧ Expr.ofJson json = .error refusal

/-- A text is rejected for one reason wherever it stands as a value. -/
structure Rejected (text : List Char) (rejection : Rejection) : Prop where
  starts : Starts text
  rejects : ∀ {before rest input : List Char}, Blank before → Delimited rest →
    input = before ++ text ++ rest → Rejects (readValue input) rest rejection

/-- A list is refused for the first of its items that is. -/
theorem ofJson_of_refused {jsons others : List Json} {json : Json} {exprs : List Expr}
    {refusal : Refusal} (means : Mean jsons exprs) (refused : Expr.ofJson json = .error refusal) :
    Expr.ofJson (.array (jsons ++ json :: others)) = .error refusal := by
  have items (reversed : List Expr) :
      Expr.ofItems reversed (jsons ++ json :: others) = .error refusal := by
    induction means generalizing reversed with
    | nil =>
        rw [List.nil_append, Expr.ofItems]
        simp only [refused]
    | cons itemMeans _ inductionHypothesis =>
        rw [List.cons_append, Expr.ofItems]
        simp only [itemMeans, inductionHypothesis]
  rw [Expr.ofJson, items]
  rfl

/-- A value in a list is delimited by the next comma or by the end of the list. -/
theorem delimited_of_following {later rest : List Char} {others : List Expr}
    (following : Following later others) : Delimited (later ++ ']' :: rest) := by
  cases following with
  | close spaces => exact delimited_of_blank spaces (delimited_cons (.inr rfl))
  | comma spaces _ =>
      rw [List.append_assoc, List.cons_append]
      exact delimited_of_blank spaces (delimited_cons (.inl rfl))

/-- What is rejected in a place is what the value around it is rejected for. -/
theorem Rejected.of_place {front text back : List Char} {fill : Expr → Expr}
    {rejection : Rejection} (place : Place front back fill) (rejected : Rejected text rejection) :
    Rejected (front ++ text ++ back) rejection := by
  induction place with
  | here => simpa using rejected
  | @item earlier items blank front back fill later others leading spaces _ following
      inductionHypothesis =>
      refine ⟨⟨'[', _, rfl, by decide, by decide⟩, ?_⟩
      intro before rest input outer _ split
      obtain ⟨inside, isInside⟩ : ∃ inside, inside =
          blank ++ (front ++ text ++ back) ++ (later ++ ']' :: rest) := ⟨_, rfl⟩
      obtain rfl : input = before ++ '[' :: (earlier ++ inside) := by
        rw [split, isInside]
        simp
      have opens : Opens inside :=
        ⟨blank, _, spaces, inductionHypothesis.starts.append (later ++ ']' :: rest),
          by rw [isInside, List.append_assoc]⟩
      have inner := inductionHypothesis.rejects spaces (delimited_of_following following) isInside
      obtain ⟨reading, bracket, goesOn⟩ :=
        readValue_of_bracket outer (opens_of_leading leading opens) rfl
      obtain ⟨jsons, means, reached⟩ := goesOn.past_leading leading opens
      rw [bracket]
      cases rejection with
      | unreadable complaint =>
          obtain ⟨fault, stopped, same⟩ := inner
          rw [reached.fails stopped]
          exact ⟨fault, rfl, same⟩
      | refused refusal =>
          obtain ⟨json, ⟨shorter, read⟩, refused⟩ := inner
          obtain ⟨fits, behind⟩ := reached.reads read
          obtain ⟨tail, _, others⟩ := @readItems_of_following later rest others following
          refine ⟨_, ?_, @ofJson_of_refused _ tail _ _ _ means refused⟩
          rw [behind]
          refine reads_map_iff.mpr ⟨_, others _ _ fits, ?_⟩
          simp

/-- A program is rejected for what its value is rejected for. -/
theorem decode_of_rejected {source : Source} {before text after : List Char}
    {rejection : Rejection} (front : Blank before) (rejected : Rejected text rejection)
    (back : Blank after) (whole : source.text.toList = before ++ text ++ after) :
    match rejection with
    | .unreadable complaint => ∃ position excerpt,
        source.decode = .error (.unreadable source.name position complaint excerpt)
    | .refused refusal => source.decode = .error (.refused refusal) := by
  have rejects := rejected.rejects front (delimited_of_end back) whole
  cases rejection with
  | unreadable complaint =>
      obtain ⟨fault, stopped, rfl⟩ := rejects
      have read : read source.text.toList = .error fault := by
        rw [Json.read, stopped]
      exact ⟨_, _, Source.decode_of_fault read⟩
  | refused refusal =>
      obtain ⟨json, ⟨_, first⟩, refused⟩ := rejects
      have read : read source.text.toList = .ok json := by
        rw [Json.read, first]
        simp only [nextVisible_of_blank (Nat.le_refl _) back]
      rw [Source.decode_of_read read, refused]
      rfl

end Json

end JsonForms
