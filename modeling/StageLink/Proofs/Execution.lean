import StageLink.Walk
import StageLink.Proofs.Runs

/-!
# Execution of instruction lists

What an instruction list does follows from what is done by its operations: reading, storing, calling
and emitting.  Jumps end the execution of the lists around them as far as the loop or function that
they leave, and a loop makes turns until one of them ends it or a bound is reached.
-/

namespace StageLink

/-- A step from storage to a part of it, which has a type of its own. -/
inductive Location.Step (Value : Type) where
  | element (index : Value) (ty : Ty)
  | field (name : String) (ty : Ty)
  | select (positions : List Nat) (ty : Ty)

/-- Storage inside a variable. -/
structure Location (Value : Type) where
  root : VariableId
  path : List (Location.Step Value) := []

/-- The part of some storage that a step leads to. -/
def Location.part {Value : Type} (location : Location Value) (step : Location.Step Value) :
    Location Value :=
  { location with path := location.path ++ [step] }

/-- How an execution ends. -/
inductive Ending (Value : Type) where
  /-- At the end of the list. -/
  | complete
  /-- Leaving the innermost loop. -/
  | leave
  /-- Going on with the next turn of the innermost loop. -/
  | next
  | yield (value : Option Value)
  | discard
  /-- At the bound on turns and calls. -/
  | exhausted
  /-- At something that has no meaning. -/
  | undefined

/-- The state that an execution reaches, what it lets be seen on the way, and how it ends. -/
structure Execution (State Event Value : Type) where
  state : State
  events : List Event := []
  ending : Ending Value := .complete

/-- A choice that an execution makes. -/
inductive Decision where
  | accept
  | reject
  /-- To make one more turn of a loop. -/
  | turn
  deriving DecidableEq

/-- What the operations of instructions do.  Where there is no answer, they have no meaning. -/
structure Operations (State Event Value : Type) where
  declare : VariableId → State → State
  assign : Place → Expr → State → Option State
  /-- Whether a condition holds. -/
  holds : Expr → State → Option Bool
  /-- What is returned. -/
  value : Expr → State → Option Value
  call : Callee → List Expr → Option Place → State → Execution State Event Value
  emitVertex : State → Event
  endPrimitive : State → Event
  /-- What is seen of a decision. -/
  decided : Decision → State → List Event

variable {State Event Value : Type}

namespace Execution

/-- See something before an execution. -/
def following (events : List Event) (execution : Execution State Event Value) :
    Execution State Event Value :=
  { execution with events := events ++ execution.events }

/-- Go on after an execution that has come to the end of its list. -/
def andThen (first : Execution State Event Value) (next : State → Execution State Event Value) :
    Execution State Event Value :=
  match first.ending with
  | .complete => (next first.state).following first.events
  | _ => first

/-- Make turns of a loop until one of them ends it, but at most a number of turns. -/
def turns (turn : State → Execution State Event Value) : Nat → State → Execution State Event Value
  | 0, state => { state := state, ending := .exhausted }
  | count + 1, state =>
      let first := turn state
      match first.ending with
      | .complete | .next => (turns turn count first.state).following first.events
      | .leave => { first with ending := .complete }
      | _ => first

/-- Come back from a function to where it was called, with the value it returns.  A jump out of its
body other than that has no meaning. -/
def returning (back : State → Option Value → State) (inner : Execution State Event Value) :
    Execution State Event Value :=
  match inner.ending with
  | .complete => { inner with state := back inner.state none }
  | .yield value => { inner with state := back inner.state value, ending := .complete }
  | .leave | .next => { inner with ending := .undefined }
  | _ => inner

end Execution

section

variable (operations : Operations State Event Value) (bound : Nat)

/-- Whether a guard lets an assignment be done. -/
def Operations.permits : Option Expr → State → Option Bool
  | none, _ => some true
  | some guard, state => operations.holds guard state

mutual

def Instruction.execute : Instruction → State → Execution State Event Value
  | .declare id, state => { state := operations.declare id state }
  | .function _, state => { state := state }
  | .assign target value guard, state =>
      match operations.permits guard state with
      | none => { state := state, ending := .undefined }
      | some false => { state := state }
      | some true =>
          match operations.assign target value state with
          | none => { state := state, ending := .undefined }
          | some stored => { state := stored }
  | .call callee arguments result, state => operations.call callee arguments result state
  | .branch condition accept reject, state =>
      match operations.holds condition state with
      | none => { state := state, ending := .undefined }
      | some true => (Block.execute accept state).following (operations.decided .accept state)
      | some false => (Block.execute reject state).following (operations.decided .reject state)
  | .loop body, state =>
      Execution.turns
        (fun state => (Block.execute body state).following (operations.decided .turn state))
        bound state
  | .leave, state => { state := state, ending := .leave }
  | .next, state => { state := state, ending := .next }
  | .yield none, state => { state := state, ending := .yield none }
  | .yield (some value), state =>
      match operations.value value state with
      | none => { state := state, ending := .undefined }
      | some result => { state := state, ending := .yield (some result) }
  | .discard, state => { state := state, ending := .discard }
  | .emitVertex, state => { state := state, events := [operations.emitVertex state] }
  | .endPrimitive, state => { state := state, events := [operations.endPrimitive state] }

def Block.execute : List Instruction → State → Execution State Event Value
  | [], state => { state := state }
  | instruction :: rest, state => (instruction.execute state).andThen (Block.execute rest)

end

end

/-! ## Laws -/

namespace Execution

@[simp]
theorem following_nil (execution : Execution State Event Value) :
    execution.following [] = execution := rfl

@[simp]
theorem andThen_complete (state : State) (next : State → Execution State Event Value) :
    (Execution.mk state [] .complete).andThen next = next state := rfl

theorem andThen_following (events : List Event) (first : Execution State Event Value)
    (next : State → Execution State Event Value) :
    (first.following events).andThen next = (first.andThen next).following events := by
  obtain ⟨state, seen, ending⟩ := first
  cases ending with
  | complete => simp [andThen, following]
  | _ => rfl

/-- Going on is associative. -/
theorem andThen_andThen (first : Execution State Event Value)
    (second third : State → Execution State Event Value) :
    (first.andThen second).andThen third = first.andThen fun state =>
    (second state).andThen third := by
  obtain ⟨state, seen, ending⟩ := first
  cases ending with
  | complete => exact andThen_following seen (second state) third
  | _ => rfl

@[simp]
theorem andThen_done (first : Execution State Event Value) :
    (first.andThen fun state => { state := state }) = first := by
  obtain ⟨state, seen, ending⟩ := first
  cases ending with
  | complete => simp [andThen, following]
  | _ => rfl

end Execution

section

variable (operations : Operations State Event Value) (bound : Nat)

/-- A list that goes on with another one is executed like the two of them in turn. -/
theorem Block.execute_append (block rest : Block) (state : State) :
    Block.execute operations bound (block ++ rest) state =
      (Block.execute operations bound block state).andThen
      (Block.execute operations bound rest) := by
  induction block generalizing state with
  | nil => rw [List.nil_append, Block.execute, Execution.andThen_complete]
  | cons instruction block ih =>
      rw [List.cons_append, Block.execute, Block.execute, Execution.andThen_andThen]
      congr 1
      funext reached
      exact ih reached

@[simp]
theorem Block.execute_singleton (instruction : Instruction) (state : State) :
    Block.execute operations bound [instruction] state =
      instruction.execute operations bound state := by
  have last : Block.execute operations bound [] = fun state => { state := state } := by
    funext reached
    rw [Block.execute]
  rw [Block.execute, last, Execution.andThen_done]

end

/-! ## Executions side by side -/

namespace Execution

/-- Two executions end in the same way and in related states, and let related things be seen. -/
structure Related (same : State → State → Prop) (seen : Event → Event → Prop)
    (first second : Execution State Event Value) : Prop where
  state : same first.state second.state
  events : List.Forall₂ seen first.events second.events
  ending : second.ending = first.ending

namespace Related

variable {same : State → State → Prop} {seen : Event → Event → Prop}
variable {first second : Execution State Event Value}

@[elab_as_elim]
theorem componentwise {motive : Execution State Event Value → Execution State Event Value → Prop}
    (related : Related same seen first second)
    (parts : ∀ {state reached events others} (ending : Ending Value), same state reached →
      List.Forall₂ seen events others → motive ⟨state, events, ending⟩ ⟨reached, others, ending⟩) :
    motive first second := by
  obtain ⟨state, events, ending⟩ := first
  obtain ⟨reached, others, ends⟩ := second
  obtain ⟨states, seen_so_far, same_ending⟩ := related
  obtain rfl : ends = ending := same_ending
  exact parts ends states seen_so_far

theorem done {state other : State} (related : same state other) (ending : Ending Value) :
    Related same seen ⟨state, [], ending⟩ ⟨other, [], ending⟩ :=
  ⟨related, .nil, rfl⟩

theorem following {events others : List Event} (related : Related same seen first second)
    (before : List.Forall₂ seen events others) :
    Related same seen (first.following events) (second.following others) :=
  ⟨related.state, List.rel_append before related.events, related.ending⟩

/-- Executions that go on in related ways stay related. -/
theorem andThen {next other : State → Execution State Event Value}
    (related : Related same seen first second)
    (goes_on : ∀ state reached, same state reached →
      Related same seen (next state) (other reached)) :
    Related same seen (first.andThen next) (second.andThen other) := by
  refine related.componentwise fun ending states seen_so_far => ?_
  cases ending with
  | complete => exact (goes_on _ _ states).following seen_so_far
  | _ => exact ⟨states, seen_so_far, rfl⟩

/-- Loops whose turns are related are related. -/
theorem turns {turn other : State → Execution State Event Value}
    (each : ∀ state reached, same state reached →
      Related same seen (turn state) (other reached)) (count : Nat) {state reached : State}
    (start : same state reached) :
    Related same seen (Execution.turns turn count state) (Execution.turns other count reached) := by
  induction count generalizing state reached with
  | zero => exact done start .exhausted
  | succ count ih =>
      have related := each state reached start
      rw [Execution.turns, Execution.turns]
      generalize turn state = first at related
      generalize other reached = second at related
      refine related.componentwise fun ending states seen_so_far => ?_
      cases ending with
      | complete | next => exact (ih states).following seen_so_far
      | _ => exact ⟨states, seen_so_far, rfl⟩

theorem returning {back other : State → Option Value → State}
    (related : Related same seen first second)
    (comes_back : ∀ state reached value, same state reached →
      same (back state value) (other reached value)) :
    Related same seen (first.returning back) (second.returning other) := by
  refine related.componentwise fun ending states seen_so_far => ?_
  cases ending with
  | complete | yield _ => exact ⟨comes_back _ _ _ states, seen_so_far, rfl⟩
  | _ => exact ⟨states, seen_so_far, rfl⟩

/-- Executions are related by whatever follows from the relations. -/
theorem mono {weaker : State → State → Prop} {shown : Event → Event → Prop}
    (related : Related same seen first second)
    (states : ∀ state reached, same state reached → weaker state reached)
    (events : ∀ event other, seen event other → shown event other) :
    Related weaker shown first second :=
  ⟨states _ _ related.state, related.events.imp events, related.ending⟩

theorem trans {third : Execution State Event Value} (one : Related same seen first second)
    (other : Related same seen second third)
    (states : ∀ state middle reached, same state middle → same middle reached → same state reached)
    (events : ∀ event middle shown, seen event middle → seen middle shown → seen event shown) :
    Related same seen first third where
  state := states _ _ _ one.state other.state
  events := forall₂_of_comp events one.events other.events
  ending := other.ending.trans one.ending

end Related
end Execution
end StageLink
