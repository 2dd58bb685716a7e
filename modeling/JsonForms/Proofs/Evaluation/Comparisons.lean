import JsonForms.Proofs.Evaluation.Assignments
import JsonForms.Proofs.Evaluation.Depth
import JsonForms.Proofs.Text.ByteOrder

/-!
# The order of values

Two operations ask for the order of two values and one asks whether they are equal. They
belong together: there is one order of integers and one of strings, `Value.atMost`, which
one of the operations asks for as it is and the other one from the other side, and values
that are at most as large as each other are the equal ones. Values of different kinds and
values of other kinds have no order, but they are equal or not like all others.
-/

namespace JsonForms

namespace Value

/-- Both values are integers, or both are strings. -/
inductive Comparable : Value → Value → Prop where
  | int (left right : Int) : Comparable (.int left) (.int right)
  | str (left right : String) : Comparable (.str left) (.str right)

/-- Whether the first value does not come after the second one: integers as numbers, and
strings by the bytes of their UTF-8 form. -/
def atMost : Value → Value → Bool
  | .int left, .int right => left ≤ right
  | .str left, .str right => Text.bytes left ≤ Text.bytes right
  | _, _ => false

/-- Integers are compared as numbers. -/
theorem atMost_int {left right : Int} :
    (Value.int left).atMost (.int right) = true ↔ left ≤ right := by
  rw [atMost, decide_eq_true_eq]

/-- Strings are compared as their bytes are, which is how they are ordered. -/
theorem atMost_str {left right : String} :
    (Value.str left).atMost (.str right) = true ↔ left ≤ right := by
  rw [atMost, decide_eq_true_eq, Text.bytes_le_iff]

/-- Values of which one is at most as large as the other can be compared. -/
theorem comparable_of_atMost {left right : Value} (atMost : left.atMost right = true) :
    Comparable left right := by
  cases left <;> cases right
  case int.int => exact .int _ _
  case str.str => exact .str _ _
  all_goals cases atMost

/-- Values that cannot be compared have no order. -/
theorem order?_of_not_comparable {left right : Value} (apart : ¬ Comparable left right) :
    left.order? right = none := by
  cases left <;> cases right
  case int.int => exact absurd (.int _ _) apart
  case str.str => exact absurd (.str _ _) apart
  all_goals rfl

/-- Values that can be compared have an order, and it is this one from both sides. -/
theorem order?_of_comparable {left right : Value} (comparable : Comparable left right) :
    ∃ ordering, left.order? right = some ordering ∧ ordering.isLE = left.atMost right ∧
      ordering.isGE = right.atMost left := by
  cases comparable with
  | int left right =>
      refine ⟨compare left right, rfl, Bool.eq_iff_iff.mpr ?_, Bool.eq_iff_iff.mpr ?_⟩
      · exact (Ordering.ne_gt_iff_isLE.symm.trans compare_le_iff_le).trans atMost_int.symm
      · exact (Ordering.ne_lt_iff_isGE.symm.trans compare_ge_iff_ge).trans atMost_int.symm
  | str left right =>
      refine ⟨compare left right, rfl, Bool.eq_iff_iff.mpr ?_, Bool.eq_iff_iff.mpr ?_⟩
      · exact (Ordering.ne_gt_iff_isLE.symm.trans compare_le_iff_le).trans atMost_str.symm
      · exact (Ordering.ne_lt_iff_isGE.symm.trans compare_ge_iff_ge).trans atMost_str.symm

/-- A value that can be compared is at most as large as itself. -/
theorem atMost_refl {value : Value} (comparable : Comparable value value) :
    value.atMost value = true := by
  cases comparable with
  | int => exact atMost_int.mpr (le_refl _)
  | str => exact atMost_str.mpr (le_refl _)

/-- The order is transitive. -/
theorem atMost_trans {first second third : Value} (atMost : first.atMost second = true)
    (further : second.atMost third = true) : first.atMost third = true := by
  cases comparable_of_atMost atMost with
  | int =>
      cases comparable_of_atMost further
      exact atMost_int.mpr ((atMost_int.mp atMost).trans (atMost_int.mp further))
  | str =>
      cases comparable_of_atMost further
      exact atMost_str.mpr ((atMost_str.mp atMost).trans (atMost_str.mp further))

/-- Of two values that can be compared one is at most as large as the other. -/
theorem atMost_total {left right : Value} (comparable : Comparable left right) :
    left.atMost right = true ∨ right.atMost left = true := by
  cases comparable with
  | int left right => exact (le_total left right).imp atMost_int.mpr atMost_int.mpr
  | str left right => exact (le_total left right).imp atMost_str.mpr atMost_str.mpr

/-- Values that can be compared are each at most as large as the other exactly when they are
equal. -/
theorem atMost_antisymm_iff {left right : Value} (comparable : Comparable left right) :
    left.atMost right = true ∧ right.atMost left = true ↔ left = right := by
  cases comparable with
  | int left right => rw [atMost_int, atMost_int, ← le_antisymm_iff, int.injEq]
  | str left right => rw [atMost_str, atMost_str, ← le_antisymm_iff, str.injEq]

end Value

/-- The operation has this result on operands that have these values, whatever else the
evaluations of the operands do. -/
def Machine.Decides (arithmetic : Arithmetic) (memory : Memory) (limit : Nat)
    (operation : Operation) (left right : Value) (result : Except EvalError Value) : Prop :=
  ∀ (first second : Expr) (state middle after : State), state.depth < limit →
    Ends arithmetic memory limit first (state.opened operation) ⟨.ok left, middle⟩ →
      Ends arithmetic memory limit second middle ⟨.ok right, after⟩ →
        Ends arithmetic memory limit (.form operation.name [first, second]) state
          ⟨result, after.withDepth state.depth⟩

namespace Machine

variable {arithmetic : Arithmetic} {memory : Memory} {limit : Nat} {operation : Operation}
  {left right : Value} {result : Except EvalError Value}

/-- An operation that evaluates two operands, the left one first, decides by the values
that it gets. -/
theorem decides_of_apply {next : Value → Value → Action Value}
    (applied : ∀ (machine : Machine) (first second : Operand),
      operation.apply machine [first, second] =
        some (first.run.bind fun left => second.run.bind fun right => next left right))
    (decided : next left right = Action.ofExcept result) :
    Decides arithmetic memory limit operation left right result := by
  intro first second state middle after room ends endsToo
  obtain ⟨enough, ended⟩ := ends.eventually
  obtain ⟨enoughToo, endedToo⟩ := endsToo.eventually
  let machine : Machine := ⟨arithmetic, memory, limit, max enough enoughToo⟩
  have found : machine.evaluate first _ = _ := ended _ (Nat.le_max_left enough enoughToo)
  have foundToo : machine.evaluate second _ = _ := endedToo _ (Nat.le_max_right enough enoughToo)
  have applies : operation.apply machine (machine.operands [first, second]) =
      some ((machine.evaluate first).bind fun left =>
        (machine.evaluate second).bind fun right => next left right) := by
    rw [operands, operands, operands]
    exact applied ..
  have inside : after.depth = state.depth + 1 := endsToo.depth.trans ends.depth
  have level : after.depth - 1 = state.depth := by rw [inside, Nat.add_sub_cancel]
  refine ⟨max enough enoughToo, ?_⟩
  rw [evaluate_form applies, Action.nested_announce room, Action.bind_of_ok found,
    Action.bind_of_ok foundToo, decided, ← level]
  rfl

/-- An operation that asks for an order decides by it, and has a type mismatch for values without
one. -/
theorem decides_order (holds : Ordering → Bool)
    (applied : ∀ (machine : Machine) (first second : Operand),
      operation.apply machine [first, second] =
        some (Operation.ordered operation holds first second)) :
    (∀ ordering, left.order? right = some ordering →
      Decides arithmetic memory limit operation left right (.ok (.bool (holds ordering)))) ∧
    (left.order? right = none → Decides arithmetic memory limit operation left right
      (.error (.typeMismatch (.order operation left.kind right.kind)))) := by
  refine ⟨fun ordering ordered => decides_of_apply applied ?_,
    fun unordered => decides_of_apply applied ?_⟩
  · simp only [ordered]
    rfl
  · simp only [unordered]
    rfl

/-- A form that reads a variable with a value gives that value and changes nothing but the
events. -/
theorem ends_get_of_bound {there : State} (room : there.depth < limit) {name : String}
    {value : Value} (bound : there.environment.get? name = some value) :
    ∃ events, Ends arithmetic memory limit (.form Operation.get.name [.str name]) there
      ⟨.ok value, { there with events := events }⟩ := by
  have ends : Ends arithmetic memory limit (.form Operation.get.name [.str name]) there _ :=
    ends_get room name
  rw [bound] at ends
  exact ⟨_, ends⟩

/-- Any two values are those of some operands, so an operation has one result on them. -/
theorem Decides.unique {other : Except EvalError Value}
    (decides : Decides arithmetic memory limit operation left right result)
    (decidesToo : Decides arithmetic memory limit operation left right other) (room : 1 < limit) :
    result = other := by
  let environment := (Environment.empty.set "left" left).set "right" right
  let state : State := ⟨environment, .unlimited, #[], 0⟩
  have boundLeft : environment.get? "left" = some left := by
    rw [Environment.get?_set, if_neg (by decide), Environment.get?_set_self]
  have boundRight : environment.get? "right" = some right := Environment.get?_set_self ..
  obtain ⟨events, ends⟩ :=
    @ends_get_of_bound arithmetic memory _ (state.opened operation) room _ _ boundLeft
  obtain ⟨_, endsToo⟩ :=
    @ends_get_of_bound arithmetic memory _ { state.opened operation with events := events } room _ _
      boundRight
  have start : state.depth < limit := Nat.lt_of_succ_lt room
  have one := decides _ _ state _ _ start ends endsToo
  cases one.unique (decidesToo _ _ state _ _ start ends endsToo)
  rfl

/-- Equality is decided for any two values. -/
theorem decides_equal :
    Decides arithmetic memory limit .equal left right (.ok (.bool (left = right))) :=
  decides_of_apply (fun _ _ _ => rfl) rfl

/-- The operations that compare are about one order. Two of them ask for it, from either
side, and are defined on two integers and on two strings; the third one asks whether two
values are equal, whatever they are. These are their only results where there is room for
operands with such values. On each of the two kinds the order is reflexive, transitive and
total, and values that come before each other are equal. Integers are in order as numbers
and strings as their bytes are, which is as their code points are, with a text before all
longer ones that start with it. -/
theorem comparisons_are_one_order (arithmetic : Arithmetic) (memory : Memory) (limit : Nat) :
    (∀ left right, Value.Comparable left right →
      Decides arithmetic memory limit .leq left right (.ok (.bool (left.atMost right))) ∧
      Decides arithmetic memory limit .geq left right (.ok (.bool (right.atMost left)))) ∧
    (∀ left right, ¬ Value.Comparable left right → ∀ operation ∈ [Operation.leq, .geq],
      Decides arithmetic memory limit operation left right
        (.error (.typeMismatch (.order operation left.kind right.kind)))) ∧
    (∀ left right, Decides arithmetic memory limit .equal left right (.ok (.bool (left = right)))) ∧
    (1 < limit → ∀ operation left right result other,
      Decides arithmetic memory limit operation left right result →
        Decides arithmetic memory limit operation left right other → result = other) ∧
    (∀ value, Value.Comparable value value → value.atMost value = true) ∧
    (∀ first second third : Value, first.atMost second = true → second.atMost third = true →
      first.atMost third = true) ∧
    (∀ left right, Value.Comparable left right →
      (left.atMost right = true ∨ right.atMost left = true) ∧
      (left.atMost right = true ∧ right.atMost left = true ↔ left = right)) ∧
    (∀ left right, (Value.int left).atMost (.int right) = true ↔ left ≤ right) ∧
    (∀ left right, ((Value.str left).atMost (.str right) = true ↔
        Text.bytes left ≤ Text.bytes right) ∧
      (Text.bytes left ≤ Text.bytes right ↔ Text.codePoints left ≤ Text.codePoints right)) ∧
    ∀ text more, more ≠ "" → (Value.str text).atMost (.str (text ++ more)) = true ∧
      (Value.str (text ++ more)).atMost (.str text) = false := by
  refine ⟨fun left right comparable => ?_, fun left right apart operation member => ?_,
    fun _ _ => decides_equal, fun room _ _ _ _ _ decides other => decides.unique other room,
    fun _ => Value.atMost_refl, fun _ _ _ => Value.atMost_trans,
    fun _ _ comparable => ⟨Value.atMost_total comparable, Value.atMost_antisymm_iff comparable⟩,
    fun _ _ => Value.atMost_int, fun left right => ?_, fun text more nonempty => ?_⟩
  · obtain ⟨ordering, ordered, isLE, isGE⟩ := Value.order?_of_comparable comparable
    rw [← isLE, ← isGE]
    exact ⟨(decides_order Ordering.isLE fun _ _ _ => rfl).1 ordering ordered,
      (decides_order Ordering.isGE fun _ _ _ => rfl).1 ordering ordered⟩
  · have unordered := Value.order?_of_not_comparable apart
    simp only [List.mem_cons, List.not_mem_nil, or_false] at member
    obtain rfl | rfl := member
    · exact (decides_order Ordering.isLE fun _ _ _ => rfl).2 unordered
    · exact (decides_order Ordering.isGE fun _ _ _ => rfl).2 unordered
  · exact ⟨Value.atMost_str.trans Text.bytes_le_iff.symm,
      Text.bytes_le_iff.trans Text.codePoints_le_iff.symm⟩
  · have less := Text.lt_append text nonempty
    exact ⟨Value.atMost_str.mpr less.le, Bool.eq_false_iff.mpr fun atMost =>
      absurd (Value.atMost_str.mp atMost) (not_le_of_gt less)⟩

/-- A ligature of three bytes comes before a character of four, whose first unit in
UTF-16 would be the smaller one. An integer and a string have no order. -/
theorem comparisons_are_one_order_ligature :
    let state : State := ⟨.empty, .unlimited, #[], 0⟩
    let closed (operation : Operation) := (state.opened operation).withDepth 0
    Value.Comparable (.str "ﬀ") (.str "😀") ∧
    Ends .word64 (.below 16) 1 (.form "leq" [.str "ﬀ", .str "😀"]) state
      ⟨.ok (.bool true), closed .leq⟩ ∧
    Ends .word64 (.below 16) 1 (.form "geq" [.str "ﬀ", .str "😀"]) state
      ⟨.ok (.bool false), closed .geq⟩ ∧
    Ends .word64 (.below 16) 1 (.form "equal" [.str "ﬀ", .str "😀"]) state
      ⟨.ok (.bool false), closed .equal⟩ ∧
    ¬ Value.Comparable (.int 1) (.str "1") ∧
    Ends .word64 (.below 16) 1 (.form "leq" [.int 1, .str "1"]) state
      ⟨.error (.typeMismatch (.order .leq .integer .string)), closed .leq⟩ ∧
    Text.codePoints "ﬀ" ≤ Text.codePoints "😀" ∧ (Value.str "a").atMost (.str "b") = true ∧
    (Value.str "ab").atMost (.str "a") = false := by
  intro state closed
  obtain ⟨ordered, unordered, equal, _, _, trans, _, _, strings, prefixes⟩ :=
    comparisons_are_one_order .word64 (.below 16) 1
  have comparable : Value.Comparable (.str "ﬀ") (.str "😀") := .str _ _
  have apart : ¬ Value.Comparable (.int 1) (.str "1") := nofun
  have room : state.depth < 1 := by decide
  have atMost : (Value.str "ﬀ").atMost (.str "😀") = true := by decide
  have notAtMost : (Value.str "😀").atMost (.str "ﬀ") = false := by decide
  obtain ⟨leq, geq⟩ := ordered _ _ comparable
  have same := equal (.str "ﬀ") (.str "😀")
  have differ : decide (Value.str "ﬀ" = .str "😀") = false := by decide
  rw [atMost] at leq
  rw [notAtMost] at geq
  rw [differ] at same
  have codePoints := (strings "ﬀ" "😀").2.mp ((strings "ﬀ" "😀").1.mp atMost)
  have between := (prefixes "a" "b" (by decide)).1
  exact ⟨comparable, leq _ _ state _ _ room ⟨0, rfl⟩ ⟨0, rfl⟩,
    geq _ _ state _ _ room ⟨0, rfl⟩ ⟨0, rfl⟩, same _ _ state _ _ room ⟨0, rfl⟩ ⟨0, rfl⟩,
    apart, unordered _ _ apart .leq (.head _) _ _ state _ _ room ⟨0, rfl⟩ ⟨0, rfl⟩, codePoints,
    trans _ _ _ between (by decide), (prefixes "a" "b" (by decide)).2⟩

end Machine

end JsonForms
