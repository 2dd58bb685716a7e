import JsonForms.Expr.Decode

/-!
# What decoding refuses

A source that is no JSON at all is unreadable, whatever stands in it before the
fault. Of one that is JSON, the tree decides: each value in it that is reached
through lists alone is refused or not by itself, and decoding reports the first
one that is refused in the order of the text. Without any such value the tree is
that of an expression, `Expr.toJson`, and that expression is the program.
-/

namespace JsonForms

/-! ## Refused values -/

/-- A value that has no meaning in a program, by itself and not for what it holds:
null, objects, and numbers that are the integer of no word. -/
inductive Json.Refused : Json → Refusal → Prop where
  | null : Refused .null .null
  | object (members : List (String × Json)) : Refused (.object members) .object
  | number {value : Json.Number} (outside : ∀ word : Int64, value ≠ .integer word.toInt) :
      Refused (.number value) (.number value)

/-- The value is the tree or an element of a list that is reached in it. Objects are
not entered. -/
inductive Json.Reaches : Json → Json → Prop where
  | self (json : Json) : Reaches json json
  | inside {items : List Json} {item part : Json} (member : item ∈ items)
      (reaches : item.Reaches part) : Reaches (.array items) part

namespace Json

mutual

/-- The values that are reached in a tree and are no lists, in the order of the text. -/
def leaves : Json → List Json
  | .array items => leavesOfItems items
  | leaf => [leaf]

/-- The leaves of the items of a list, one item after another. -/
def leavesOfItems : List Json → List Json
  | [] => []
  | item :: following => item.leaves ++ leavesOfItems following

end

/-- Among values in an order there is one that is refused, and none before it is. -/
def FirstRefused (values : List Json) (refusal : Refusal) : Prop :=
  ∃ before value after, values = before ++ value :: after ∧ value.Refused refusal ∧
    ∀ earlier ∈ before, ∀ other, ¬ earlier.Refused other

/-- None of some values is refused. -/
def NoneRefused (values : List Json) : Prop :=
  ∀ value ∈ values, ∀ refusal, ¬ value.Refused refusal

/-- Values of which none is refused stay so behind others of the kind. -/
theorem NoneRefused.append {values others : List Json} (first : NoneRefused values)
    (second : NoneRefused others) : NoneRefused (values ++ others) := by
  intro value member
  obtain member | member := List.mem_append.mp member
  · exact first value member
  · exact second value member

/-- What follows the first refused value has no effect on which one it is. -/
theorem FirstRefused.append_right {values : List Json} {refusal : Refusal}
    (first : FirstRefused values refusal) (others : List Json) :
    FirstRefused (values ++ others) refusal := by
  obtain ⟨before, value, after, rfl, refused, none⟩ := first
  exact ⟨before, value, after ++ others, by simp, refused, none⟩

/-- A first refused value stays the first behind values that are not refused. -/
theorem FirstRefused.append_left {values others : List Json} {refusal : Refusal}
    (first : FirstRefused others refusal) (none : NoneRefused values) :
    FirstRefused (values ++ others) refusal := by
  obtain ⟨before, value, after, rfl, refused, noneBefore⟩ := first
  exact ⟨values ++ before, value, after, by simp, refused, none.append noneBefore⟩

/-- With a first refused value not all are accepted. -/
theorem FirstRefused.not_noneRefused {values : List Json} {refusal : Refusal}
    (first : FirstRefused values refusal) : ¬ NoneRefused values := by
  obtain ⟨before, value, after, rfl, refused, _⟩ := first
  intro none
  exact none value (by simp) refusal refused

/-- A value is refused for one reason only. -/
theorem Refused.unique {value : Json} {refusal other : Refusal} (one : value.Refused refusal)
    (another : value.Refused other) : refusal = other := by
  cases one <;> cases another <;> rfl

/-- There is one first refusal at most. -/
theorem FirstRefused.unique {values : List Json} {refusal other : Refusal}
    (one : FirstRefused values refusal) (another : FirstRefused values other) :
    refusal = other := by
  obtain ⟨before, value, after, rfl, refused, none⟩ := one
  obtain ⟨front, found, back, split, refusedToo, noneToo⟩ := another
  induction before generalizing front with
  | nil =>
      cases front with
      | nil =>
          cases split
          exact refused.unique refusedToo
      | cons first front =>
          cases split
          exact absurd refused (noneToo value (.head _) refusal)
  | cons first before inductionHypothesis =>
      cases front with
      | nil =>
          cases split
          exact absurd refusedToo (none found (.head _) other)
      | cons second front =>
          have rest : before ++ value :: after = front ++ found :: back := (List.cons.inj split).2
          exact inductionHypothesis (fun earlier member => none earlier (.tail _ member)) front
            rest fun earlier member => noneToo earlier (.tail _ member)

/-- A leaf is what is reached and is no list. -/
theorem mem_leavesOfItems_iff {items : List Json} {leaf : Json} :
    leaf ∈ leavesOfItems items ↔ ∃ item ∈ items, leaf ∈ item.leaves := by
  induction items with
  | nil => simp [leavesOfItems]
  | cons item following inductionHypothesis =>
      simp [leavesOfItems, inductionHypothesis]

/-- Decoding reaches every leaf. -/
theorem reaches_of_mem_leaves {leaf : Json} : ∀ {json : Json}, leaf ∈ json.leaves →
    json.Reaches leaf
  | .array items, member => by
      rw [leaves] at member
      obtain ⟨item, inside, member⟩ := mem_leavesOfItems_iff.mp member
      exact .inside inside (reaches_of_mem_leaves member)
  | .null, member | .bool _, member | .number _, member | .string _, member
  | .object _, member => by
      obtain rfl := List.mem_singleton.mp member
      exact .self _

/-- Lists are never refused, so what is reached and refused is a leaf. -/
theorem mem_leaves_of_refused {json part : Json} {refusal : Refusal} (reaches : json.Reaches part)
    (refused : part.Refused refusal) : part ∈ json.leaves := by
  induction reaches with
  | self =>
      cases refused <;> exact List.mem_singleton.mpr rfl
  | inside member _ inductionHypothesis =>
      rw [leaves]
      exact mem_leavesOfItems_iff.mpr ⟨_, member, inductionHypothesis refused⟩

/-- No leaf is refused exactly when nothing that decoding reaches is. -/
theorem noneRefused_leaves_iff (json : Json) :
    NoneRefused json.leaves ↔
      ∀ part, json.Reaches part → ∀ refusal, ¬ part.Refused refusal := by
  constructor
  · intro none part reaches refusal refused
    exact none part (mem_leaves_of_refused reaches refused) refusal refused
  · intro none leaf member
    exact none leaf (reaches_of_mem_leaves member)

/-- The word of a number is the one whose integer it is. -/
theorem Number.word?_eq_some_iff (number : Number) (word : Int64) :
    number.word? = some word ↔ number = .integer word.toInt := by
  cases number with
  | double value => simp [word?]
  | integer value =>
      have least := word.le_toInt
      have greatest := word.toInt_lt
      rw [word?, Option.ite_none_right_eq_some, Option.some.injEq, integer.injEq]
      constructor
      · rintro ⟨⟨above, below⟩, rfl⟩
        exact (Int64.toInt_ofInt_of_le above below).symm
      · rintro rfl
        exact ⟨⟨least, greatest⟩, Int64.ofInt_toInt word⟩

end Json

/-! ## Trees of expressions -/

namespace Expr

mutual

/-- The JSON tree that an expression is written as. -/
def toJson : Expr → Json
  | .int value => .number (.integer value.toInt)
  | .str text => .string text
  | .bool value => .bool value
  | .list items => .array (toItems items)

/-- The trees of some expressions. -/
def toItems : List Expr → List Json
  | [] => []
  | item :: following => item.toJson :: toItems following

end

mutual

/-- The value of an expression decodes to the expression. -/
theorem ofJson_toJson : ∀ expr : Expr, ofJson expr.toJson = .ok expr
  | .int value => by
      have word := (Json.Number.word?_eq_some_iff _ value).mpr rfl
      rw [toJson, ofJson]
      simp only [word]
  | .str text => by rw [toJson, ofJson]
  | .bool value => by rw [toJson, ofJson]
  | .list items => by
      rw [toJson, ofJson, ofItems_toItems]
      rfl

/-- The values of expressions decode to them, behind those already decoded. -/
theorem ofItems_toItems (reversed : List Expr) : ∀ items : List Expr,
    ofItems reversed (toItems items) = .ok (reversed.reverse ++ items)
  | [] => by rw [toItems, ofItems, List.append_nil]
  | item :: following => by
      rw [toItems, ofItems, ofJson_toJson item]
      simp only [ofItems_toItems (item :: reversed) following, List.reverse_cons,
        List.append_assoc, List.singleton_append]

end

mutual

/-- A tree is converted to the expression whose tree it is, and then none of its
leaves is refused, or it fails by the first refused leaf. -/
theorem ofJson_settles : ∀ json : Json,
    (∃ expr, ofJson json = .ok expr ∧ expr.toJson = json ∧ Json.NoneRefused json.leaves) ∨
      ∃ refusal, ofJson json = .error refusal ∧ Json.FirstRefused json.leaves refusal
  | .null => by
      rw [ofJson]
      exact .inr ⟨_, rfl, [], .null, [], rfl, .null, nofun⟩
  | .bool value => by
      rw [ofJson]
      refine .inl ⟨_, rfl, rfl, fun leaf member refusal refused => ?_⟩
      obtain rfl := List.mem_singleton.mp member
      cases refused
  | .number value => by
      rw [ofJson]
      cases found : value.word? with
      | some word =>
          obtain rfl := (value.word?_eq_some_iff word).mp found
          refine .inl ⟨_, rfl, rfl, fun leaf member refusal refused => ?_⟩
          obtain rfl := List.mem_singleton.mp member
          cases refused with
          | number outside => exact outside word rfl
      | none =>
          refine .inr ⟨_, rfl, [], .number value, [], rfl, .number fun word same => ?_, nofun⟩
          rw [(value.word?_eq_some_iff word).mpr same] at found
          cases found
  | .string text => by
      rw [ofJson]
      refine .inl ⟨_, rfl, rfl, fun leaf member refusal refused => ?_⟩
      obtain rfl := List.mem_singleton.mp member
      cases refused
  | .array items => by
      rw [ofJson, Json.leaves]
      obtain ⟨exprs, converted, trees, none⟩ | ⟨refusal, failed, first⟩ := ofItems_settles [] items
      · rw [converted]
        exact .inl ⟨.list exprs, rfl, by rw [toJson, trees], none⟩
      · rw [failed]
        exact .inr ⟨refusal, rfl, first⟩
  | .object members => by
      rw [ofJson]
      exact .inr ⟨_, rfl, [], .object members, [], rfl, .object members, nofun⟩

/-- The items of a list are converted in their order up to the first one that fails. -/
theorem ofItems_settles (reversed : List Expr) : ∀ items : List Json,
    (∃ exprs, ofItems reversed items = .ok (reversed.reverse ++ exprs) ∧ toItems exprs = items ∧
      Json.NoneRefused (Json.leavesOfItems items)) ∨
    ∃ refusal, ofItems reversed items = .error refusal ∧
      Json.FirstRefused (Json.leavesOfItems items) refusal
  | [] => .inl ⟨[], by rw [ofItems, List.append_nil], rfl, fun _ member => nomatch member⟩
  | item :: following => by
      rw [ofItems, Json.leavesOfItems]
      obtain ⟨expr, converted, tree, none⟩ | ⟨refusal, failed, first⟩ := ofJson_settles item
      · simp only [converted]
        obtain ⟨exprs, convertedRest, trees, noneLater⟩ | ⟨refusal, failed, first⟩ :=
          ofItems_settles (expr :: reversed) following
        · refine .inl ⟨expr :: exprs, ?_, by rw [toItems, tree, trees], none.append noneLater⟩
          rw [convertedRest, List.reverse_cons, List.append_assoc, List.singleton_append]
        · exact .inr ⟨refusal, failed, first.append_left none⟩
      · simp only [failed]
        exact .inr ⟨refusal, rfl, first.append_right _⟩

end

/-- A tree is converted exactly to the expression whose tree it is. -/
theorem ofJson_eq_ok_iff (json : Json) (expr : Expr) :
    ofJson json = .ok expr ↔ json = expr.toJson := by
  constructor
  · intro converted
    obtain ⟨other, found, tree, _⟩ | ⟨refusal, failed, _⟩ := ofJson_settles json
    · rw [converted] at found
      cases found
      exact tree.symm
    · rw [converted] at failed
      cases failed
  · rintro rfl
    exact ofJson_toJson expr

/-- Decoding a value fails with the refusal of the first refused leaf, and only so. -/
theorem ofJson_eq_error_iff (json : Json) (refusal : Refusal) :
    ofJson json = .error refusal ↔ Json.FirstRefused json.leaves refusal := by
  obtain ⟨expr, found, _, none⟩ | ⟨other, found, first⟩ := ofJson_settles json
  · rw [found]
    exact ⟨nofun, fun first => absurd none first.not_noneRefused⟩
  · rw [found, Except.error.injEq]
    exact ⟨fun same => same ▸ first, first.unique⟩

/-- Decoding a value succeeds exactly when no leaf is refused. -/
theorem ofJson_succeeds_iff (json : Json) :
    (∃ expr, ofJson json = .ok expr) ↔ Json.NoneRefused json.leaves := by
  obtain ⟨expr, found, _, none⟩ | ⟨refusal, found, first⟩ := ofJson_settles json
  · exact ⟨fun _ => none, fun _ => ⟨expr, found⟩⟩
  · rw [found]
    exact ⟨nofun, fun none => absurd none first.not_noneRefused⟩

end Expr

namespace Source

/-- A text that cannot be read is reported with its fault. -/
theorem decode_of_fault {source : Source} {fault : Json.Fault}
    (unread : Json.read source.text.toList = .error fault) :
    source.decode = .error (source.unreadable fault) := by
  rw [decode]
  simp only [unread]

/-- What is read is decoded as every tree is. -/
theorem decode_of_read {source : Source} {json : Json}
    (read : Json.read source.text.toList = .ok json) :
    source.decode = (Expr.ofJson json).mapError .refused := by
  rw [decode]
  simp only [read]
  cases Expr.ofJson json <;> rfl

/-- The text of a source is at fault exactly when it does not read as JSON. -/
theorem decode_unreadable_iff (source : Source) :
    (∃ name position complaint excerpt,
      source.decode = .error (.unreadable name position complaint excerpt)) ↔
        ∀ json, Json.read source.text.toList ≠ .ok json := by
  cases found : Json.read source.text.toList with
  | error fault =>
      rw [decode_of_fault found]
      exact ⟨fun _ _ => nofun, fun _ => ⟨_, _, _, _, rfl⟩⟩
  | ok json =>
      rw [decode_of_read found]
      constructor
      · rintro ⟨_, _, _, _, failed⟩
        cases converted : Expr.ofJson json <;> rw [converted] at failed <;> cases failed
      · exact fun unread => absurd rfl (unread json)

/-- A source holds the program whose tree is read. -/
theorem decode_eq_ok_iff_toJson (source : Source) (expr : Expr) :
    source.decode = .ok expr ↔ Json.read source.text.toList = .ok expr.toJson := by
  cases found : Json.read source.text.toList with
  | error fault =>
      rw [decode_of_fault found]
      exact ⟨nofun, nofun⟩
  | ok json =>
      rw [decode_of_read found, Except.ok.injEq, ← Expr.ofJson_eq_ok_iff]
      cases Expr.ofJson json with
      | error => exact ⟨nofun, nofun⟩
      | ok => exact ⟨fun same => by cases same; rfl, fun same => by cases same; rfl⟩

/-- A source that reads as JSON is refused by the first value in it that is refused. -/
theorem decode_refused_iff (source : Source) (refusal : Refusal) :
    source.decode = .error (.refused refusal) ↔
      ∃ json, Json.read source.text.toList = .ok json ∧
        Json.FirstRefused json.leaves refusal := by
  cases found : Json.read source.text.toList with
  | error fault =>
      rw [decode_of_fault found]
      exact ⟨nofun, nofun⟩
  | ok json =>
      rw [decode_of_read found]
      simp only [Except.ok.injEq, exists_eq_left', ← Expr.ofJson_eq_error_iff]
      cases Expr.ofJson json with
      | error => exact ⟨fun same => by cases same; rfl, fun same => by cases same; rfl⟩
      | ok => exact ⟨nofun, nofun⟩

/-- Decoding fails for the text exactly when it does not read as JSON, whatever
stands before the fault. Otherwise it gives the expression whose tree is read, or
the first value in the order of the text that is refused. For every tree, read or
not, there is an expression exactly when nothing that is refused is reached
through lists; objects are refused as a whole and nothing is reached in them. -/
theorem decoding_failures_are_classified (source : Source) :
    ((∃ name position complaint excerpt,
        source.decode = .error (.unreadable name position complaint excerpt)) ↔
      ∀ json, Json.read source.text.toList ≠ .ok json) ∧
    (∀ expr, source.decode = .ok expr ↔ Json.read source.text.toList = .ok expr.toJson) ∧
    (∀ refusal, source.decode = .error (.refused refusal) ↔
      ∃ json, Json.read source.text.toList = .ok json ∧
        Json.FirstRefused json.leaves refusal) ∧
    ∀ json, (∀ expr, Expr.ofJson json = .ok expr ↔ json = expr.toJson) ∧
      ((∃ expr, Expr.ofJson json = .ok expr) ↔
        ∀ part, json.Reaches part → ∀ refusal, ¬ part.Refused refusal) ∧
      ∀ refusal, Expr.ofJson json = .error refusal ↔ Json.FirstRefused json.leaves refusal := by
  refine ⟨source.decode_unreadable_iff, source.decode_eq_ok_iff_toJson,
    source.decode_refused_iff, fun json => ?_⟩
  refine ⟨Expr.ofJson_eq_ok_iff json, ?_, Expr.ofJson_eq_error_iff json⟩
  exact (Expr.ofJson_succeeds_iff json).trans (Json.noneRefused_leaves_iff json)

/-- The fault is reported, though null stands before it. -/
example : Source.decode ⟨"p", "[null,]"⟩ =
    .error (.unreadable "p" ⟨1, 7⟩ .trailingComma "[null,]") := by cbv

end Source

end JsonForms
