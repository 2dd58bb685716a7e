import JsonForms.Proofs.Evaluation.DepthLimit
import JsonForms.Proofs.Evaluation.Steps
import JsonForms.Session

/-!
# Open forms

The number of open forms is counted by hand: it goes up when a list is opened
and down when the list is left, by whatever way. It always comes back to what it
was, so every evaluation of a session starts with no open form, and how deep an
evaluation goes is bounded by how deep its program is written.
-/

namespace JsonForms

/-! ## Lists that fit under the limit -/

/-- The action does not exceed the limit and leaves as many forms open as it
finds, when it finds so many. -/
def Action.Uncut (depth : Nat) {α : Type} (action : Action α) : Prop :=
  ∀ state ending, state.depth = depth → action state = some ending →
    ¬ ending.IsCut ∧ ending.state.depth = depth

namespace Action

/-- A result that is no error of the limit is not cut. -/
theorem uncut_ofExcept {depth : Nat} {α : Type} {result : Except EvalError α}
    (uncut : ∀ limit, result ≠ .error (.depthExceeded limit)) :
    Uncut depth (ofExcept result) := by
  intro state ending level ended
  cases ended
  exact ⟨fun ⟨limit, cut⟩ => uncut limit cut, level⟩

/-- A sequence is not cut when none of its actions is. -/
theorem Uncut.bind {depth : Nat} {α β : Type} {first : Action α} {next : α → Action β}
    (uncut : Uncut depth first) (uncutNext : ∀ value, Uncut depth (next value)) :
    Uncut depth (first.bind next) := by
  intro state ending level ended
  obtain ⟨error, middle, found, rfl⟩ | ⟨value, middle, found, ended⟩ := ending_of_bind ended
  · obtain ⟨complete, after⟩ := uncut _ _ level found
    exact ⟨fun ⟨limit, cut⟩ => complete ⟨limit, by cases cut; rfl⟩, after⟩
  · exact uncutNext value _ _ (uncut _ _ level found).2 ended

/-- Not being cut is kept by sequencing. -/
theorem uncut_sequential (depth : Nat) :
    Sequential fun {_} (first _ : Action _) => Uncut depth first where
  pure value := uncut_ofExcept fun _ cut => by cases cut
  bind := Uncut.bind

end Action

namespace Machine

/-- Nothing that opened lists do exceeds the limit, unless it opens another list. -/
theorem uncut_congruentAt (machine : Machine) (depth : Nat) (expr : Expr) :
    CongruentAt machine machine expr (fun _ => True)
      (fun {_} _ first _ => Action.Uncut depth first) where
  toSequenced := (Action.uncut_sequential depth).sequenced
  sameMemory := rfl
  fail raises := Action.uncut_ofExcept fun limit cut => by cases cut; cases raises
  lookup := by
    rintro name - state ending level ended
    unfold Action.lookup at ended
    split at ended <;> cases ended <;> exact ⟨by rintro ⟨_, ⟨⟩⟩, level⟩
  assign := by
    rintro name _ value - - state ending level ended
    cases ended
    exact ⟨by rintro ⟨_, ⟨⟩⟩, level⟩
  writeLine := by
    rintro _ value - - state ending level ended
    rw [Action.writeLine_eq] at ended
    split at ended <;> cases ended <;> exact ⟨by rintro ⟨_, ⟨⟩⟩, level⟩
  abs _ _ := Action.uncut_ofExcept fun limit cut => by
    obtain mismatch | ⟨_, _, _, overflow⟩ := Arithmetic.error_of_abs cut
    · cases mismatch
    · cases overflow
  add _ _ _ := Action.uncut_ofExcept fun limit cut => by
    obtain mismatch | ⟨_, _, _, _, _, overflow⟩ := Arithmetic.error_of_add cut
    · cases mismatch
    · cases overflow
  loop _ tests bodies :=
    (Action.uncut_sequential depth).always_loop (fun _ _ _ ended => nomatch ended) tests bodies _

/-- A program whose lists fit under the limit does not exceed it. -/
theorem uncut_evaluate (machine : Machine) (program : Expr) {depth : Nat}
    (fits : depth + program.nesting ≤ machine.limit) :
    Action.Uncut depth (machine.evaluate program) := by
  induction program using Expr.induct generalizing depth with
  | int value => exact (Action.uncut_sequential depth).pure (Value.int value.toInt)
  | str text => exact (Action.uncut_sequential depth).pure (Value.str text)
  | bool value => exact (Action.uncut_sequential depth).pure (Value.bool value)
  | list items inductionHypothesis =>
      intro state ending level ended
      rw [evaluate_list] at ended
      obtain ⟨result, after, _, performed, rfl⟩ | ⟨full, rfl⟩ := Action.ending_of_nested ended
      · have alike : List.Forall₂ (Operand.Alike fun first _ => Action.Uncut (depth + 1) first)
            (machine.operands items) (machine.operands items) := by
          rw [operands_eq_map, List.forall₂_map_left_iff, List.forall₂_map_right_iff,
            List.forall₂_same]
          refine fun item member => ⟨rfl, inductionHypothesis item member ?_⟩
          have deeper := Expr.nesting_lt_of_mem member
          omega
        have announced : ∀ operation, Action.Uncut (depth + 1) (Action.announce operation) := by
          intro operation state ending level ended
          cases ended
          exact ⟨by rintro ⟨_, ⟨⟩⟩, level⟩
        have opened := (uncut_congruentAt machine (depth + 1) _).perform announced alike
        obtain ⟨complete, final⟩ := opened _ _ (congrArg (· + 1) level) performed
        exact ⟨complete, by rw [final, Nat.add_sub_cancel]⟩
      · rw [Expr.nesting] at fits
        omega

end Machine

/-! ## The counter of open forms -/

/-- A word that counts open forms up to a limit that is a word does not wrap. -/
theorem toNat_word_of_lt {depth limit : Nat} (room : depth < limit) (word : limit < UInt64.size) :
    (UInt64.ofNat depth + 1).toNat = depth + 1 ∧ (UInt64.ofNat (depth + 1) - 1).toNat = depth := by
  have fits : depth + 1 < UInt64.size := Nat.lt_of_le_of_lt room word
  have counted := UInt64.toNat_ofNat_of_lt' (Nat.lt_of_succ_lt fits)
  constructor
  · rw [UInt64.toNat_add, counted]
    exact Nat.mod_eq_of_lt fits
  · show (UInt64.ofNat (depth + 1) - UInt64.ofNat 1).toNat = depth
    rw [UInt64.ofNat_add, UInt64.add_sub_cancel, counted]

namespace State

/-- That no more forms are open than the limit allows is invariant. -/
theorem invariant_depth_le (base limit : Nat) :
    Invariant base limit fun there => base ≤ there.depth ∧ there.depth ≤ limit where
  above holds := holds.1
  step := by
    rintro there next ⟨above, within⟩ step
    refine ⟨step.base_le above, ?_⟩
    cases step with
    | opened operation room => exact room
    | closed => exact Nat.le_trans (Nat.sub_le ..) within
    | assigned | wrote => exact within

end State

namespace Machine

variable {arithmetic : Arithmetic} {memory : Memory} {limit : Nat} {program : Expr} {state : State}

/-- An evaluation leaves as many forms open as it finds, however it ends. -/
theorem Ends.depth {ending : Ending Value}
    (ends : Ends arithmetic memory limit program state ending) :
    ending.state.depth = state.depth := by
  obtain unchanged | ⟨inner, _, _, closed⟩ :=
    ends.within (State.invariant_depth_le _ limit) fun operation room => ⟨Nat.le_refl _, room⟩
  · rw [unchanged]
  · rw [closed]
    rfl

/-- No more forms are open than the limit allows, wherever an evaluation comes to. -/
theorem Visits.depth_le {part : Expr} {there : State}
    (visits : Visits arithmetic memory limit program state part there)
    (within : state.depth ≤ limit) :
    there.depth ≤ limit := by
  obtain ⟨_, _, ⟨rfl, rfl⟩, rfl | ⟨_, within⟩⟩ := Reaches.within visits
    (State.invariant_depth_le _ limit) fun operation room => ⟨Nat.le_refl _, room⟩
  · exact within
  · exact within

/-- What is done inside an opened list leaves as many forms open as it finds. -/
theorem depth_of_perform {machine : Machine} {items : List Expr} {ending : Ending Value}
    (performed : machine.perform (machine.operands items) state = some ending) :
    ending.state.depth = state.depth := by
  have invariant : State.Invariant 0 machine.limit fun there => 0 ≤ there.depth :=
    ⟨id, fun _ _ => Nat.zero_le _⟩
  have nowhere : ∀ part there, (fun _ _ => False : Expr → State → Prop) part there →
      ¬ 0 ≤ there.depth := fun _ _ never => never.elim
  have alike := operandsUntil_alike fun item (_ : item ∈ items) =>
    keeps_evaluateUntil invariant nowhere (.depthExceeded 0) item
  have announced : ∀ operation, Action.Keeps (fun there : State => 0 ≤ there.depth)
      (Action.announce operation) (Action.announce operation) := by
    intro operation there holds
    refine ⟨rfl, fun ending ended => ?_⟩
    cases ended
    exact ⟨holds, rfl⟩
  have keeps := (keeps_congruentAt invariant _).perform announced alike
  rw [← operandsUntil_never] at performed
  exact ((keeps state (Nat.zero_le _)).2 ending performed).2

end Machine

/-! ## The order in which forms are opened -/

/-- The number of open forms that an event reports. -/
def Event.depth? : Event → Option Nat
  | .dispatch _ depth => some depth
  | .set _ _ => none

/-- Depths of a walk that comes to every node of a tree before those below it,
with the root at depth one. -/
structure PreOrder (limit : Nat) (depths : List Nat) : Prop where
  first : ∀ {depth}, depths.head? = some depth → depth = 1
  next : ∀ {index before after}, depths[index]? = some before → depths[index + 1]? = some after →
    2 ≤ after ∧ after ≤ before + 1
  bounded : ∀ depth ∈ depths, depth ≤ limit

namespace PreOrder

/-- A walk may end before it comes to the root. -/
theorem nil (limit : Nat) : PreOrder limit [] := ⟨nofun, nofun, nofun⟩

/-- Under a limit above zero a walk may come to the root. -/
theorem root {limit : Nat} (room : 0 < limit) : PreOrder limit [1] where
  first found := by cases found; rfl
  next _ found := by simp at found
  bounded depth member := by cases List.mem_singleton.mp member; exact room

/-- A walk goes on to a node right below the last one, or further up, but not
back to the root. -/
theorem append_singleton {limit last depth : Nat} {depths : List Nat}
    (walk : PreOrder limit depths) (ended : depths.getLast? = some last) (below : 2 ≤ depth)
    (near : depth ≤ last + 1) (within : depth ≤ limit) : PreOrder limit (depths ++ [depth]) where
  first found := by
    cases depths with
    | nil => cases ended
    | cons => exact walk.first found
  next {index before after} found foundNext := by
    obtain inside | outside := Nat.lt_or_ge (index + 1) depths.length
    · rw [List.getElem?_append_left inside] at foundNext
      rw [List.getElem?_append_left (Nat.lt_of_succ_lt inside)] at found
      exact walk.next found foundNext
    · have final : index + 1 = depths.length := by
        have inside : index + 1 < (depths ++ [depth]).length :=
          (List.getElem?_eq_some_iff.mp foundNext).1
        rw [List.length_append, List.length_singleton] at inside
        omega
      rw [List.getElem?_append_right outside, final, Nat.sub_self] at foundNext
      cases foundNext
      have previous : depths[index]? = depths.getLast? := by
        rw [List.getLast?_eq_getElem?, ← final, Nat.add_sub_cancel]
      rw [List.getElem?_append_left (by omega), previous, ended] at found
      cases found
      exact ⟨below, near⟩
  bounded := by
    intro other member
    obtain member | member := List.mem_append.mp member
    · exact walk.bounded other member
    · cases List.mem_singleton.mp member
      exact within

end PreOrder

/-- The forms opened since a state are opened in pre-order. -/
def State.Walked (limit : Nat) (start there : State) : Prop :=
  ∃ reported, there.events.toList = start.events.toList ++ reported ∧
    PreOrder limit (reported.filterMap Event.depth?)

/-- The forms opened since a state are opened in pre-order, and the last of them
is at least as deep as the forms that are open. -/
def State.Walking (limit : Nat) (start there : State) : Prop :=
  ∃ reported last, there.events.toList = start.events.toList ++ reported ∧
    PreOrder limit (reported.filterMap Event.depth?) ∧
    (reported.filterMap Event.depth?).getLast? = some last ∧ there.depth ≤ last

namespace State

/-- That forms are opened in pre-order is invariant below a form that is open. -/
theorem invariant_walking (start : State) (limit : Nat) :
    Invariant (start.depth + 1) limit fun there =>
      start.depth + 1 ≤ there.depth ∧ start.Walking limit there where
  above holds := holds.1
  step := by
    rintro there next ⟨above, reported, last, events, walk, ended, reached⟩ step
    refine ⟨step.base_le above, ?_⟩
    cases step with
    | opened operation room =>
        refine ⟨reported ++ [.dispatch operation (there.depth + 1)], there.depth + 1, ?_, ?_, ?_,
          Nat.le_refl _⟩
        · rw [opened, Array.toList_push, events, List.append_assoc]
        · rw [List.filterMap_append]
          exact walk.append_singleton ended (by omega) (Nat.succ_le_succ reached) room
        · rw [List.filterMap_append]
          exact List.getLast?_concat
    | closed => exact ⟨reported, last, events, walk, ended, Nat.le_trans (Nat.sub_le ..) reached⟩
    | assigned name value =>
        refine ⟨reported ++ [.set name value], last, ?_, ?_, ?_, reached⟩
        · rw [assigned, Array.toList_push, events, List.append_assoc]
        · rw [List.filterMap_append]
          exact (List.append_nil _).symm ▸ walk
        · rw [List.filterMap_append]
          exact (List.append_nil _).symm ▸ ended
    | wrote => exact ⟨reported, last, events, walk, ended, reached⟩

/-- The form of a program is the root of the walk. -/
theorem walking_opened (start : State) (operation : Operation) (outside : start.depth = 0)
    {limit : Nat} (room : start.depth < limit) :
    start.depth + 1 ≤ (start.opened operation).depth ∧
      start.Walking limit (start.opened operation) := by
  obtain ⟨environment, sink, events, depth⟩ := start
  cases outside
  exact ⟨Nat.le_refl _, [.dispatch operation 1], 1, Array.toList_push, .root room, rfl,
    Nat.le_refl _⟩

end State

namespace Session

/-- The second session comes from the first one by evaluations, assignments,
other limits and other variables. -/
inductive Leads : Session → Session → Prop where
  | refl (session : Session) : Leads session session
  | evaluated {first session next : Session} {program : Expr} {result : Except EvalError Value}
      (before : Leads first session) (evaluated : session.evaluate program = some (result, next)) :
      Leads first next
  | assigned {first session : Session} (before : Leads first session) (name : String)
      (value : Value) : Leads first (session.set name value).2
  | limited {first session : Session} (before : Leads first session) (limit : Nat) :
      Leads first (session.withLimit limit)
  | replaced {first session : Session} (before : Leads first session) (environment : Environment) :
      Leads first (session.withEnvironment environment)

/-- An evaluation of a session is one under the limit of the session. -/
theorem ends_of_evaluate {session next : Session} {program : Expr}
    {result : Except EvalError Value} (evaluated : session.evaluate program = some (result, next)) :
    Machine.Ends .word64 session.memory session.limit program session.state
      ⟨result, next.state⟩ := by
  obtain ⟨ending, ended, same⟩ := Option.map_eq_some_iff.mp evaluated
  cases same
  exact ⟨amplePasses, ended⟩

/-- Whatever a session goes through, no form stays open in between. -/
theorem depth_of_leads {first session : Session} (leads : first.Leads session) :
    session.state.depth = first.state.depth := by
  induction leads with
  | refl => rfl
  | evaluated _ evaluated inductionHypothesis =>
      exact (ends_of_evaluate evaluated).depth.trans inductionHypothesis
  | assigned _ _ _ inductionHypothesis => exact inductionHypothesis
  | limited _ _ inductionHypothesis => exact inductionHypothesis
  | replaced _ _ inductionHypothesis => exact inductionHypothesis

end Session

namespace Machine

variable {arithmetic : Arithmetic} {memory : Memory} {limit : Nat} {program : Expr} {state : State}

/-- A program whose forms all fit under the limit is not cut. -/
theorem Ends.not_isCut {ending : Ending Value}
    (ends : Ends arithmetic memory limit program state ending)
    (fits : state.depth + program.nesting ≤ limit) : ¬ ending.IsCut := by
  obtain ⟨passes, ended⟩ := ends
  exact (uncut_evaluate ⟨arithmetic, memory, limit, passes⟩ program fits state ending rfl ended).1

/-- However an evaluation ends that no form was open for, its forms were opened in pre-order. -/
theorem Ends.walked {ending : Ending Value}
    (ends : Ends arithmetic memory limit program state ending)
    (outside : state.depth = 0) : state.Walked limit ending.state := by
  obtain unchanged | ⟨inner, ⟨_, reported, _, events, walk, _⟩, _, closed⟩ :=
    ends.within (state.invariant_walking limit) fun operation room =>
      state.walking_opened operation outside room
  · exact ⟨[], by rw [unchanged, List.append_nil], .nil limit⟩
  · exact ⟨reported, by rw [closed]; exact events, walk⟩

/-- Wherever an evaluation comes to that no form was open for, its forms were opened in
pre-order. -/
theorem Visits.walked {part : Expr} {there : State}
    (visits : Visits arithmetic memory limit program state part there) (outside : state.depth = 0) :
    state.Walked limit there := by
  obtain ⟨_, _, ⟨rfl, rfl⟩, rfl | ⟨_, reported, _, events, walk, _⟩⟩ :=
    Reaches.within visits (state.invariant_walking limit) fun operation room =>
      state.walking_opened operation outside room
  · exact ⟨[], (List.append_nil _).symm, .nil limit⟩
  · exact ⟨reported, events, walk⟩

/-- However an evaluation ends, as many forms are open as at its start. Where it
comes to on the way, no more are open than the limit allows, and opening and
closing a list there, whatever happens inside, counts them without wrapping a
word of 64 bits. So between the evaluations of a session no form is open, and a
program whose lists fit under its limit does not exceed it. The forms that an
evaluation with no open form reports are a walk in pre-order. -/
theorem open_forms_are_counted (arithmetic : Arithmetic) (memory : Memory) (limit : Nat)
    (program : Expr) (state : State) :
    (∀ ending, Ends arithmetic memory limit program state ending →
      ending.state.depth = state.depth) ∧
    (state.depth ≤ limit → ∀ part there, Visits arithmetic memory limit program state part there →
      there.depth ≤ limit ∧
      ∀ items, part = .list items → there.depth < limit → limit < UInt64.size →
        (UInt64.ofNat there.depth + 1).toNat = there.depth + 1 ∧
        ∀ passes ending,
          Machine.perform ⟨arithmetic, memory, limit, passes⟩
            (operands ⟨arithmetic, memory, limit, passes⟩ items)
            { there with depth := there.depth + 1 } = some ending →
          (UInt64.ofNat ending.state.depth - 1).toNat = there.depth) ∧
    (∀ environment sink bound session,
      (Session.start environment sink bound).Leads session → session.state.depth = 0 ∧
        ∀ next result after, session.evaluate next = some (result, after) →
          next.nesting ≤ session.limit → ∀ exceeded, result ≠ .error (.depthExceeded exceeded)) ∧
    (state.depth = 0 →
      (∀ ending, Ends arithmetic memory limit program state ending →
        state.Walked limit ending.state) ∧
      ∀ part there, Visits arithmetic memory limit program state part there →
        state.Walked limit there) := by
  refine ⟨fun ending ends => ends.depth,
    fun within part there visits => ⟨visits.depth_le within, ?_⟩,
    fun environment sink bound session leads => ?_,
    fun outside => ⟨fun ending ends => ends.walked outside,
      fun part there visits => visits.walked outside⟩⟩
  · rintro items - room word
    obtain ⟨up, down⟩ := toNat_word_of_lt room word
    refine ⟨up, fun passes ending performed => ?_⟩
    rw [depth_of_perform performed]
    exact down
  · have outside : session.state.depth = 0 := Session.depth_of_leads leads
    refine ⟨outside, fun next result after evaluated fits exceeded cut => ?_⟩
    have ends := Session.ends_of_evaluate evaluated
    exact ends.not_isCut (by rw [outside, Nat.zero_add]; exact fits) ⟨exceeded, cut⟩

/-- Two forms inside one, which come to two open forms one after the other. -/
theorem open_forms_are_counted_seq :
    let program := Expr.form "seq" [.form "seq" [.int 1], .form "seq" [.int 2]]
    let session := @Session.start (.below 16) .empty .unlimited 2
    ∃ ending next, Ends .word64 (.below 16) 2 program session.state ending ∧
      ending.state.depth = session.state.depth ∧ session.state.Walked 2 ending.state ∧
      ending.state.events.toList.filterMap Event.depth? = [1, 2, 2] ∧
      Visits .word64 (.below 16) 2 program session.state program session.state ∧
      (UInt64.ofNat session.state.depth + 1).toNat = session.state.depth + 1 ∧
      session.evaluate program = some (.ok (.int 2), next) ∧
      next.state.depth = 0 ∧
      ∀ exceeded, (Except.ok (Value.int 2) : Except EvalError Value) ≠
        .error (.depthExceeded exceeded) := by
  intro program session
  have ends : Ends .word64 (.below 16) 2 program session.state ⟨.ok (.int 2), ⟨.empty, .unlimited,
      #[.dispatch .seq 1, .dispatch .seq 2, .dispatch .seq 2], 0⟩⟩ := ⟨0, rfl⟩
  have visits : Visits .word64 (.below 16) 2 program session.state program session.state :=
    reaches_start ⟨rfl, rfl⟩
  have evaluated : session.evaluate program = some (.ok (.int 2), ⟨.below 16, 2,
    ⟨.empty, .unlimited, #[.dispatch .seq 1, .dispatch .seq 2, .dispatch .seq 2], 0⟩⟩) := rfl
  obtain ⟨restored, within, sessions, walks⟩ :=
    open_forms_are_counted .word64 (.below 16) 2 program session.state
  obtain ⟨_, counted⟩ := within (Nat.zero_le _) _ _ visits
  refine ⟨_, _, ends, restored _ ends, (walks rfl).1 _ ends, rfl, visits,
    (counted _ rfl (by decide) (by decide)).1, evaluated, ?_, ?_⟩
  · exact (sessions .empty .unlimited 2 _ (.evaluated (.refl session) evaluated)).1
  · exact (sessions .empty .unlimited 2 session (.refl session)).2 program _ _ evaluated
      (by decide)

end Machine

end JsonForms
