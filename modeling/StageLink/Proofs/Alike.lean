import StageLink.Proofs.Runs
import StageLink.Walk
import Mathlib.Logic.Relation

/-!
# Instruction lists that are alike

Two instruction lists are alike if they have the same shape and differ only in the variables,
functions and callees that stand in corresponding places, and in the types recorded on element
places.  Cloning, retyping and renumbering all turn a list into one that is alike.
-/

namespace StageLink

/-! ## Places and expressions -/

mutual

/-- Places of one shape with related variables. -/
inductive Place.Alike (same : VariableId → VariableId → Prop) : Place → Place → Prop
  | whole {id other} : same id other → Place.Alike same (.whole id) (.whole other)
  | element {array array' index index' ty ty'} :
      Place.Alike same array array' → Expr.Alike same index index' →
      Place.Alike same (.element array index ty) (.element array' index' ty')
  | field {record record' name ty} :
      Place.Alike same record record' →
      Place.Alike same (.field record name ty) (.field record' name ty)

/-- Expressions of one shape with related variables. -/
inductive Expr.Alike (same : VariableId → VariableId → Prop) : Expr → Expr → Prop
  | constant {value} : Expr.Alike same (.constant value) (.constant value)
  | load {place place'} : Place.Alike same place place' →
      Expr.Alike same (.load place) (.load place')
  | unary {operator operand operand' ty} : Expr.Alike same operand operand' →
      Expr.Alike same (.unary operator operand ty) (.unary operator operand' ty)
  | binary {operator left left' right right' ty} :
      Expr.Alike same left left' → Expr.Alike same right right' →
      Expr.Alike same (.binary operator left right ty) (.binary operator left' right' ty)
  | swizzle {value value' components ty} : Expr.Alike same value value' →
      Expr.Alike same (.swizzle value components ty) (.swizzle value' components ty)
  | compose {ty components components'} : Expr.AllAlike same components components' →
      Expr.Alike same (.compose ty components) (.compose ty components')
  | texture {sampler sampler' coordinate coordinate' ty} :
      Place.Alike same sampler sampler' → Expr.Alike same coordinate coordinate' →
      Expr.Alike same (.texture sampler coordinate ty) (.texture sampler' coordinate' ty)

/-- Lists of expressions that are alike one by one. -/
inductive Expr.AllAlike (same : VariableId → VariableId → Prop) : List Expr → List Expr → Prop
  | nil : Expr.AllAlike same [] []
  | cons {expression expression' expressions expressions'} :
      Expr.Alike same expression expression' → Expr.AllAlike same expressions expressions' →
      Expr.AllAlike same (expression :: expressions) (expression' :: expressions')

end

/-! ## Instructions -/

/-- What may differ between instruction lists that are alike. -/
structure Renaming where
  /-- Variables that are declared in corresponding places. -/
  declares : VariableId → VariableId → Prop
  /-- Variables that occur in corresponding places. -/
  mentions : VariableId → VariableId → Prop
  functions : FunctionId → FunctionId → Prop
  calls : Callee → Callee → Prop

/-- Options that are both absent, or both present with related contents. -/
abbrev BothAlike {Part : Type} (alike : Part → Part → Prop) : Option Part → Option Part → Prop :=
  Option.Rel alike

mutual

/-- Instructions of one shape whose parts are related by a renaming. -/
inductive Instruction.Alike (renames : Renaming) : Instruction → Instruction → Prop
  | declare {id other} : renames.declares id other →
      Instruction.Alike renames (.declare id) (.declare other)
  | function {id other} : renames.functions id other →
      Instruction.Alike renames (.function id) (.function other)
  | assign {target target' value value' guard guard'} :
      Place.Alike renames.mentions target target' → Expr.Alike renames.mentions value value' →
      BothAlike (Expr.Alike renames.mentions) guard guard' →
      Instruction.Alike renames (.assign target value guard) (.assign target' value' guard')
  | call {callee callee' arguments arguments' result result'} :
      renames.calls callee callee' → Expr.AllAlike renames.mentions arguments arguments' →
      BothAlike (Place.Alike renames.mentions) result result' →
      Instruction.Alike renames (.call callee arguments result) (.call callee' arguments' result')
  | branch {condition condition' accept accept' reject reject'} :
      Expr.Alike renames.mentions condition condition' →
      Block.Alike renames accept accept' → Block.Alike renames reject reject' →
      Instruction.Alike renames (.branch condition accept reject)
        (.branch condition' accept' reject')
  | loop {body body'} : Block.Alike renames body body' →
      Instruction.Alike renames (.loop body) (.loop body')
  | leave : Instruction.Alike renames .leave .leave
  | next : Instruction.Alike renames .next .next
  | yield {value value'} : BothAlike (Expr.Alike renames.mentions) value value' →
      Instruction.Alike renames (.yield value) (.yield value')
  | discard : Instruction.Alike renames .discard .discard
  | emitVertex : Instruction.Alike renames .emitVertex .emitVertex
  | endPrimitive : Instruction.Alike renames .endPrimitive .endPrimitive

/-- Instruction lists whose instructions are alike one by one. -/
inductive Block.Alike (renames : Renaming) : List Instruction → List Instruction → Prop
  | nil : Block.Alike renames [] []
  | cons {instruction instruction' rest rest'} :
      Instruction.Alike renames instruction instruction' → Block.Alike renames rest rest' →
      Block.Alike renames (instruction :: rest) (instruction' :: rest')

end

section Reflexivity

variable {same : VariableId → VariableId → Prop}

mutual

theorem Place.Alike.refl (reflexive : ∀ id, same id id) : (place : Place) →
    Place.Alike same place place
  | .whole id => .whole (reflexive id)
  | .element array index _ => .element (.refl reflexive array) (.refl reflexive index)
  | .field record _ _ => .field (.refl reflexive record)

theorem Expr.Alike.refl (reflexive : ∀ id, same id id) : (expression : Expr) →
    Expr.Alike same expression expression
  | .constant _ => .constant
  | .load place => .load (.refl reflexive place)
  | .unary _ operand _ => .unary (.refl reflexive operand)
  | .binary _ left right _ => .binary (.refl reflexive left) (.refl reflexive right)
  | .swizzle value _ _ => .swizzle (.refl reflexive value)
  | .compose _ components => .compose (.refl reflexive components)
  | .texture sampler coordinate _ =>
      .texture (.refl reflexive sampler) (.refl reflexive coordinate)

theorem Expr.AllAlike.refl (reflexive : ∀ id, same id id) : (expressions : List Expr) →
    Expr.AllAlike same expressions expressions
  | [] => .nil
  | expression :: expressions => .cons (.refl reflexive expression) (.refl reflexive expressions)

end

/-- Everything may stay what it is. -/
structure Renaming.Reflexive (renames : Renaming) : Prop where
  declares : ∀ id, renames.declares id id
  mentions : ∀ id, renames.mentions id id
  functions : ∀ id, renames.functions id id
  calls : ∀ callee, renames.calls callee callee

variable {renames : Renaming}

mutual

theorem Instruction.Alike.refl (reflexive : renames.Reflexive) : (instruction : Instruction) →
    Instruction.Alike renames instruction instruction
  | .declare id => .declare (reflexive.declares id)
  | .function id => .function (reflexive.functions id)
  | .assign target value guard =>
      .assign (.refl reflexive.mentions target) (.refl reflexive.mentions value)
        (rel_refl (.refl reflexive.mentions) guard)
  | .call callee arguments result =>
      .call (reflexive.calls callee) (.refl reflexive.mentions arguments)
        (rel_refl (.refl reflexive.mentions) result)
  | .branch condition accept reject =>
      .branch (.refl reflexive.mentions condition) (.refl reflexive accept) (.refl reflexive reject)
  | .loop body => .loop (.refl reflexive body)
  | .leave => .leave
  | .next => .next
  | .yield value => .yield (rel_refl (.refl reflexive.mentions) value)
  | .discard => .discard
  | .emitVertex => .emitVertex
  | .endPrimitive => .endPrimitive

theorem Block.Alike.refl (reflexive : renames.Reflexive) : (block : List Instruction) →
    Block.Alike renames block block
  | [] => .nil
  | instruction :: rest => .cons (.refl reflexive instruction) (.refl reflexive rest)

end

end Reflexivity

/-! ## Weaker renamings -/

/-- Whatever the first renaming relates, the second relates too. -/
structure Renaming.Implies (first second : Renaming) : Prop where
  declares : ∀ {id other}, first.declares id other → second.declares id other
  mentions : ∀ {id other}, first.mentions id other → second.mentions id other
  functions : ∀ {id other}, first.functions id other → second.functions id other
  calls : ∀ {callee other}, first.calls callee other → second.calls callee other

section Weakening

variable {same weaker : VariableId → VariableId → Prop}

mutual

theorem Place.Alike.mono (implies : ∀ {id other}, same id other → weaker id other) :
    {place other : Place} → Place.Alike same place other → Place.Alike weaker place other
  | _, _, .whole related => .whole (implies related)
  | _, _, .element array index => .element (array.mono implies) (index.mono implies)
  | _, _, .field record => .field (record.mono implies)

theorem Expr.Alike.mono (implies : ∀ {id other}, same id other → weaker id other) :
    {expression other : Expr} → Expr.Alike same expression other →
    Expr.Alike weaker expression other
  | _, _, .constant => .constant
  | _, _, .load place => .load (place.mono implies)
  | _, _, .unary operand => .unary (operand.mono implies)
  | _, _, .binary left right => .binary (left.mono implies) (right.mono implies)
  | _, _, .swizzle value => .swizzle (value.mono implies)
  | _, _, .compose components => .compose (components.mono implies)
  | _, _, .texture sampler coordinate => .texture (sampler.mono implies) (coordinate.mono implies)

theorem Expr.AllAlike.mono (implies : ∀ {id other}, same id other → weaker id other) :
    {expressions others : List Expr} → Expr.AllAlike same expressions others →
    Expr.AllAlike weaker expressions others
  | _, _, .nil => .nil
  | _, _, .cons first rest => .cons (first.mono implies) (rest.mono implies)

end

variable {renames larger : Renaming}

mutual

theorem Instruction.Alike.mono (implies : renames.Implies larger) :
    {instruction other : Instruction} →
    Instruction.Alike renames instruction other → Instruction.Alike larger instruction other
  | _, _, .declare related => .declare (implies.declares related)
  | _, _, .function related => .function (implies.functions related)
  | _, _, .assign target value guard =>
      .assign (target.mono implies.mentions) (value.mono implies.mentions)
        (rel_imp (fun _ _ related => related.mono implies.mentions) guard)
  | _, _, .call related arguments result =>
      .call (implies.calls related) (arguments.mono implies.mentions)
        (rel_imp (fun _ _ related => related.mono implies.mentions) result)
  | _, _, .branch condition accept reject =>
      .branch (condition.mono implies.mentions) (accept.mono implies) (reject.mono implies)
  | _, _, .loop body => .loop (body.mono implies)
  | _, _, .leave => .leave
  | _, _, .next => .next
  | _, _, .yield value =>
      .yield (rel_imp (fun _ _ related => related.mono implies.mentions) value)
  | _, _, .discard => .discard
  | _, _, .emitVertex => .emitVertex
  | _, _, .endPrimitive => .endPrimitive

/-- What is alike stays so for a renaming that relates more. -/
theorem Block.Alike.mono (implies : renames.Implies larger) : {block other : List Instruction} →
    Block.Alike renames block other → Block.Alike larger block other
  | _, _, .nil => .nil
  | _, _, .cons first rest => .cons (first.mono implies) (rest.mono implies)

end

end Weakening

theorem Block.Alike.length_eq {renames : Renaming} {block other : Block}
    (alike : Block.Alike renames block other) : block.length = other.length := by
  induction block generalizing other with
  | nil =>
      cases alike
      rfl
  | cons instruction rest ih =>
      cases alike with
      | cons head tail => exact congrArg (· + 1) (ih tail)

theorem Block.Alike.append {renames : Renaming} {block other more others : Block}
    (alike : Block.Alike renames block other) (alike_more : Block.Alike renames more others) :
    Block.Alike renames (block ++ more) (other ++ others) := by
  induction block generalizing other with
  | nil =>
      cases alike
      exact alike_more
  | cons instruction rest ih =>
      cases alike with
      | cons head tail => exact .cons head (ih tail)

/-! ## One after the other -/

/-- What may differ after one renaming and then another. -/
def Renaming.before (first second : Renaming) : Renaming where
  declares := Relation.Comp first.declares second.declares
  mentions := Relation.Comp first.mentions second.mentions
  functions := Relation.Comp first.functions second.functions
  calls := Relation.Comp first.calls second.calls

section Composition

variable {same later : VariableId → VariableId → Prop}

mutual

theorem Place.Alike.trans : {place other last : Place} → Place.Alike same place other →
    Place.Alike later other last → Place.Alike (Relation.Comp same later) place last
  | _, _, _, .whole related, .whole further => .whole ⟨_, related, further⟩
  | _, _, _, .element array index, .element array' index' =>
      .element (array.trans array') (index.trans index')
  | _, _, _, .field record, .field record' => .field (record.trans record')

theorem Expr.Alike.trans : {expression other last : Expr} → Expr.Alike same expression other →
    Expr.Alike later other last → Expr.Alike (Relation.Comp same later) expression last
  | _, _, _, .constant, .constant => .constant
  | _, _, _, .load place, .load place' => .load (place.trans place')
  | _, _, _, .unary operand, .unary operand' => .unary (operand.trans operand')
  | _, _, _, .binary left right, .binary left' right' =>
      .binary (left.trans left') (right.trans right')
  | _, _, _, .swizzle value, .swizzle value' => .swizzle (value.trans value')
  | _, _, _, .compose components, .compose components' => .compose (components.trans components')
  | _, _, _, .texture sampler coordinate, .texture sampler' coordinate' =>
      .texture (sampler.trans sampler') (coordinate.trans coordinate')

theorem Expr.AllAlike.trans : {expressions others last : List Expr} →
    Expr.AllAlike same expressions others → Expr.AllAlike later others last →
    Expr.AllAlike (Relation.Comp same later) expressions last
  | _, _, _, .nil, .nil => .nil
  | _, _, _, .cons first rest, .cons first' rest' => .cons (first.trans first') (rest.trans rest')

end

variable {renames renames_later : Renaming}

mutual

theorem Instruction.Alike.trans : {instruction other last : Instruction} →
    Instruction.Alike renames instruction other → Instruction.Alike renames_later other last →
    Instruction.Alike (renames.before renames_later) instruction last
  | _, _, _, .declare related, .declare further => .declare ⟨_, related, further⟩
  | _, _, _, .function related, .function further => .function ⟨_, related, further⟩
  | _, _, _, .assign target value guard, .assign target' value' guard' =>
      .assign (target.trans target') (value.trans value')
        (rel_trans (fun _ _ _ related further => related.trans further) guard guard')
  | _, _, _, .call related arguments result, .call further arguments' result' =>
      .call ⟨_, related, further⟩ (arguments.trans arguments')
        (rel_trans (fun _ _ _ related further => related.trans further) result result')
  | _, _, _, .branch condition accept reject, .branch condition' accept' reject' =>
      .branch (condition.trans condition') (accept.trans accept') (reject.trans reject')
  | _, _, _, .loop body, .loop body' => .loop (body.trans body')
  | _, _, _, .leave, .leave => .leave
  | _, _, _, .next, .next => .next
  | _, _, _, .yield value, .yield value' =>
      .yield (rel_trans (fun _ _ _ related further => related.trans further) value value')
  | _, _, _, .discard, .discard => .discard
  | _, _, _, .emitVertex, .emitVertex => .emitVertex
  | _, _, _, .endPrimitive, .endPrimitive => .endPrimitive

/-- What is alike to something alike is alike by both renamings one after the other. -/
theorem Block.Alike.trans : {block other last : List Instruction} →
    Block.Alike renames block other → Block.Alike renames_later other last →
    Block.Alike (renames.before renames_later) block last
  | _, _, _, .nil, .nil => .nil
  | _, _, _, .cons first rest, .cons first' rest' => .cons (first.trans first') (rest.trans rest')

end

end Composition

/-- An instruction without the blocks inside it. -/
def Instruction.bare (instruction : Instruction) : Instruction := instruction.withBlocks [] []

/-! ## Operations that can be reasoned about -/

/-- A way to say that an operation ensures something of its result. -/
structure Ensuring (m : Type → Type) [Monad m] where
  ensures : {Result : Type} → m Result → (Result → Prop) → Prop
  pure {Result : Type} {result : Result} {post : Result → Prop} :
    post result → ensures (pure result) post
  bind {Part Result : Type} {first : m Part} {next : Part → m Result} {middle : Part → Prop}
    {post : Result → Prop} :
    ensures first middle →
      (∀ part, ensures (next part) fun result => middle part → post result) →
      ensures (first >>= next) post
  weaken {Result : Type} {operation : m Result} {stronger post : Result → Prop} :
    (∀ result, stronger result → post result) → ensures operation stronger →
      ensures operation post

/-- A checked operation ensures what holds of its result if it has one. -/
def Checked.ensuring : Ensuring Checked where
  ensures operation post := ∀ result, operation = .ok result → post result
  pure holds result equal := Checked.pure_eq_ok.mp equal ▸ holds
  bind first next result runs := by
    obtain ⟨part, runs_first, following⟩ := Checked.bind_eq_ok.mp runs
    exact next part result following (first part runs_first)
  weaken implies holds result runs := implies result (holds result runs)

section Traversal

variable {m : Type → Type} [Monad m] (ensuring : Ensuring m)
  {change : Place → m Place} {same : VariableId → VariableId → Prop}

/-- Whether a place is no variable by itself. -/
def Place.isPart : Place → Bool
  | .whole _ => false
  | _ => true

/-- A change of places that turns the variables among some nodes into related ones, and leaves the
shape of all other places. -/
structure Faithful (change : Place → m Place) (same : VariableId → VariableId → Prop)
    (nodes : List Node) : Prop where
  wholes : ∀ id, Node.place (.whole id) ∈ nodes →
    ensuring.ensures (change (.whole id)) (Place.Alike same (.whole id))
  parts : ∀ after, after.isPart = true → ensuring.ensures (change after) fun result =>
    ∀ before, Place.Alike same before after → Place.Alike same before result

theorem Faithful.mono {nodes fewer : List Node} (faithful : Faithful ensuring change same nodes)
    (among : ∀ node ∈ fewer, node ∈ nodes) : Faithful ensuring change same fewer :=
  ⟨fun id listed => faithful.wholes id (among _ listed), faithful.parts⟩

mutual

theorem Place.mapPlaces_alike : (place : Place) → Faithful ensuring change same place.nodes →
    ensuring.ensures (place.mapPlaces change) (Place.Alike same place)
  | .whole id, faithful => by
      rw [Place.mapPlaces]
      exact faithful.wholes id (List.mem_cons_self ..)
  | .element array index ty, faithful => by
      rw [Place.mapPlaces]
      refine ensuring.bind (Place.mapPlaces_alike array
        (faithful.mono ensuring fun node listed => by simp [Place.nodes, listed])) fun _ => ?_
      refine ensuring.bind (Expr.mapPlaces_alike index
        (faithful.mono ensuring fun node listed => by simp [Place.nodes, listed])) fun _ => ?_
      exact ensuring.weaken (fun _ keeps second first => keeps _ (.element first second))
        (faithful.parts _ rfl)
  | .field record name ty, faithful => by
      rw [Place.mapPlaces]
      refine ensuring.bind (Place.mapPlaces_alike record
        (faithful.mono ensuring fun node listed => by simp [Place.nodes, listed])) fun _ => ?_
      exact ensuring.weaken (fun _ keeps inner => keeps _ (.field inner)) (faithful.parts _ rfl)

theorem Expr.mapPlaces_alike : (expression : Expr) →
    Faithful ensuring change same expression.nodes →
    ensuring.ensures (expression.mapPlaces change) (Expr.Alike same expression)
  | .constant value, _ => ensuring.pure .constant
  | .load place, faithful => by
      rw [Expr.mapPlaces]
      exact ensuring.bind (Place.mapPlaces_alike place
        (faithful.mono ensuring fun node listed => by simp [Expr.nodes, listed]))
        fun _ => ensuring.pure .load
  | .unary operator operand ty, faithful => by
      rw [Expr.mapPlaces]
      exact ensuring.bind (Expr.mapPlaces_alike operand
        (faithful.mono ensuring fun node listed => by simp [Expr.nodes, listed]))
        fun _ => ensuring.pure .unary
  | .binary operator left right ty, faithful => by
      rw [Expr.mapPlaces]
      refine ensuring.bind (Expr.mapPlaces_alike left
        (faithful.mono ensuring fun node listed => by simp [Expr.nodes, listed])) fun _ => ?_
      exact ensuring.bind (Expr.mapPlaces_alike right
        (faithful.mono ensuring fun node listed => by simp [Expr.nodes, listed]))
        fun _ => ensuring.pure fun second first => .binary first second
  | .swizzle value components ty, faithful => by
      rw [Expr.mapPlaces]
      exact ensuring.bind (Expr.mapPlaces_alike value
        (faithful.mono ensuring fun node listed => by simp [Expr.nodes, listed]))
        fun _ => ensuring.pure .swizzle
  | .compose ty components, faithful => by
      rw [Expr.mapPlaces]
      exact ensuring.bind (Expr.mapPlacesOfAll_alike components
        (faithful.mono ensuring fun node listed => by
          rw [Expr.nodes]
          exact List.mem_cons_of_mem _ listed))
        fun _ => ensuring.pure .compose
  | .texture sampler coordinate ty, faithful => by
      rw [Expr.mapPlaces]
      refine ensuring.bind (Place.mapPlaces_alike sampler
        (faithful.mono ensuring fun node listed => by simp [Expr.nodes, listed])) fun _ => ?_
      exact ensuring.bind (Expr.mapPlaces_alike coordinate
        (faithful.mono ensuring fun node listed => by simp [Expr.nodes, listed]))
        fun _ => ensuring.pure fun second first => .texture first second

theorem Expr.mapPlacesOfAll_alike : (expressions : List Expr) →
    Faithful ensuring change same (Expr.nodesOfAll expressions) →
    ensuring.ensures (Expr.mapPlacesOfAll change expressions) (Expr.AllAlike same expressions)
  | [], _ => ensuring.pure .nil
  | expression :: expressions, faithful => by
      rw [Expr.mapPlacesOfAll]
      refine ensuring.bind (Expr.mapPlaces_alike expression
        (faithful.mono ensuring fun node listed => by
          rw [Expr.nodesOfAll]
          exact List.mem_append_left _ listed)) fun _ => ?_
      exact ensuring.bind (Expr.mapPlacesOfAll_alike expressions
        (faithful.mono ensuring fun node listed => by
          rw [Expr.nodesOfAll]
          exact List.mem_append_right _ listed))
        fun _ => ensuring.pure fun rest first => .cons first rest

end

theorem mapOption_alike {Part : Type} {change : Part → m Part} {alike : Part → Part → Prop}
    {part : Option Part}
    (each : ∀ inner ∈ part, ensuring.ensures (change inner) (alike inner)) :
    ensuring.ensures (mapOption change part) (BothAlike alike part) := by
  cases part with
  | none => exact ensuring.pure .none
  | some inner => exact ensuring.bind (each inner rfl) fun _ => ensuring.pure .some

/-! ### Instruction lists -/

variable {renames : Renaming}

/-- Changing the places in the operands of an instruction gives one that is alike apart from the
blocks inside it. -/
theorem Instruction.mapPlaces_alike (instruction : Instruction)
    (faithful : Faithful ensuring change renames.mentions instruction.operandNodes)
    (declared : ∀ id, instruction = .declare id → renames.declares id id)
    (function : ∀ id, instruction = .function id → renames.functions id id)
    (called : ∀ callee arguments result, instruction = .call callee arguments result →
      renames.calls callee callee) :
    ensuring.ensures (instruction.mapPlaces change)
      (fun changed => Instruction.Alike renames instruction.bare changed.bare) := by
  cases instruction with
  | declare id => exact ensuring.pure (.declare (declared id rfl))
  | function id => exact ensuring.pure (.function (function id rfl))
  | assign target value guard =>
      refine ensuring.bind (Place.mapPlaces_alike ensuring target
        (faithful.mono ensuring fun node listed => by simp [operandNodes, listed])) fun _ => ?_
      refine ensuring.bind (Expr.mapPlaces_alike ensuring value
        (faithful.mono ensuring fun node listed => by simp [operandNodes, listed])) fun _ => ?_
      refine ensuring.bind (mapOption_alike ensuring fun inner here =>
        Expr.mapPlaces_alike ensuring inner (faithful.mono ensuring fun node listed => ?_))
        fun _ => ensuring.pure fun third second first => .assign first second third
      obtain rfl : guard = some inner := here
      simp [operandNodes, listed]
  | call callee arguments result =>
      refine ensuring.bind (Expr.mapPlacesOfAll_alike ensuring arguments
        (faithful.mono ensuring fun node listed => ?_)) fun _ => ?_
      · rw [Expr.nodesOfAll_eq_flatMap] at listed
        exact List.mem_append_left _ listed
      refine ensuring.bind (mapOption_alike ensuring fun inner here =>
        Place.mapPlaces_alike ensuring inner (faithful.mono ensuring fun node listed => ?_))
        fun _ => ensuring.pure fun second first =>
          .call (called callee arguments result rfl) first second
      obtain rfl : result = some inner := here
      exact List.mem_append_right _ (by simpa using listed)
  | branch condition accept reject =>
      exact ensuring.bind (Expr.mapPlaces_alike ensuring condition faithful)
        fun _ => ensuring.pure fun first => .branch first .nil .nil
  | loop body => exact ensuring.pure (.loop .nil)
  | leave => exact ensuring.pure .leave
  | next => exact ensuring.pure .next
  | yield value =>
      refine ensuring.bind (mapOption_alike ensuring fun inner here =>
        Expr.mapPlaces_alike ensuring inner (faithful.mono ensuring fun node listed => ?_))
        fun _ => ensuring.pure .yield
      obtain rfl : value = some inner := here
      simp [operandNodes, listed]
  | discard => exact ensuring.pure .discard
  | emitVertex => exact ensuring.pure .emitVertex
  | endPrimitive => exact ensuring.pure .endPrimitive

/-- An instruction without blocks is neither a branch nor a loop. -/
theorem Instruction.blockless {instruction : Instruction}
    (no_blocks : ∀ first second, instruction.withBlocks first second = instruction) :
    (∀ condition accept reject, instruction ≠ .branch condition accept reject) ∧
      ∀ body, instruction ≠ .loop body := by
  constructor
  · rintro condition accept reject rfl
    simpa [withBlocks] using no_blocks (.leave :: accept) reject
  · rintro body rfl
    simpa [withBlocks] using no_blocks (.leave :: body) []

/-- What is alike to an instruction without blocks has no blocks either. -/
theorem Instruction.Alike.bare_eq {instruction changed : Instruction}
    (alike : Instruction.Alike renames instruction.bare changed.bare)
    (no_blocks : ∀ first second, instruction.withBlocks first second = instruction) :
    instruction.bare = instruction ∧ changed.bare = changed := by
  refine ⟨no_blocks [] [], ?_⟩
  obtain ⟨no_branch, no_loop⟩ := blockless no_blocks
  cases instruction with
  | branch condition accept reject => exact absurd rfl (no_branch condition accept reject)
  | loop body => exact absurd rfl (no_loop body)
  | _ => cases changed <;> first | rfl | cases alike

theorem Instruction.Alike.of_bare {instruction changed : Instruction}
    (alike : Instruction.Alike renames instruction.bare changed.bare)
    (no_blocks : ∀ first second, instruction.withBlocks first second = instruction) :
    Instruction.Alike renames instruction changed := by
  obtain ⟨same, same_changed⟩ := alike.bare_eq no_blocks
  rwa [same, same_changed] at alike

theorem Instruction.Alike.is_branch {condition : Expr} {accept reject : Block}
    {changed : Instruction}
    (alike : Instruction.Alike renames (Instruction.branch condition accept reject).bare
      changed.bare) :
    ∃ condition' first second, changed = .branch condition' first second := by
  cases changed with
  | branch condition' first second => exact ⟨condition', first, second, rfl⟩
  | _ => cases alike

theorem Instruction.Alike.is_loop {body : Block} {changed : Instruction}
    (alike : Instruction.Alike renames (Instruction.loop body).bare changed.bare) :
    ∃ inner, changed = .loop inner := by
  cases changed with
  | loop inner => exact ⟨inner, rfl⟩
  | _ => cases alike

theorem Instruction.Alike.branch_of_bare {condition : Expr} {accept reject accept' reject' : Block}
    {changed : Instruction}
    (alike : Instruction.Alike renames (Instruction.branch condition accept reject).bare
      changed.bare)
    (accept_alike : Block.Alike renames accept accept')
    (reject_alike : Block.Alike renames reject reject') :
    Instruction.Alike renames (.branch condition accept reject)
      (changed.withBlocks accept' reject') := by
  obtain ⟨condition', first, second, rfl⟩ := alike.is_branch
  cases alike with
  | branch related _ _ => exact .branch related accept_alike reject_alike

theorem Instruction.Alike.loop_of_bare {body body' : Block} {changed : Instruction}
    (alike : Instruction.Alike renames (Instruction.loop body).bare changed.bare)
    (body_alike : Block.Alike renames body body') :
    Instruction.Alike renames (.loop body) (changed.withBlocks body' []) := by
  obtain ⟨inner, rfl⟩ := alike.is_loop
  exact .loop body_alike

variable {rewrite : Instruction → m Instruction}

mutual

/-- If every instruction becomes one that is alike apart from its blocks, then so does the whole. -/
theorem Instruction.mapInstructions_alike : (instruction : Instruction) →
    (∀ inner, Node.instruction inner ∈ instruction.nodes (fun _ => []) →
      ensuring.ensures (rewrite inner)
        (fun changed => Instruction.Alike renames inner.bare changed.bare)) →
    ensuring.ensures (instruction.mapInstructions rewrite) (Instruction.Alike renames instruction)
  | .branch condition accept reject, each => by
      rw [Instruction.mapInstructions]
      refine ensuring.bind (each _ (by simp [Instruction.nodes])) fun _ => ?_
      refine ensuring.bind (Block.mapInstructions_alike accept fun inner listed =>
        each inner (by simp [Instruction.nodes, listed])) fun _ => ?_
      exact ensuring.bind (Block.mapInstructions_alike reject fun inner listed =>
        each inner (by simp [Instruction.nodes, listed]))
        fun _ => ensuring.pure fun third second first => first.branch_of_bare second third
  | .loop body, each => by
      rw [Instruction.mapInstructions]
      refine ensuring.bind (each _ (by simp [Instruction.nodes])) fun _ => ?_
      exact ensuring.bind (Block.mapInstructions_alike body fun inner listed =>
        each inner (by simp [Instruction.nodes, listed]))
        fun _ => ensuring.pure fun second first => first.loop_of_bare second
  | .declare _, each | .function _, each | .assign _ _ _, each | .call _ _ _, each
  | .leave, each | .next, each | .yield _, each | .discard, each | .emitVertex, each
  | .endPrimitive, each => by
      rw [Instruction.mapInstructions]
      · exact ensuring.weaken (fun _ related => related.of_bare fun _ _ => rfl)
          (each _ (by simp [Instruction.nodes]))
      all_goals simp

theorem Block.mapInstructions_alike : (block : List Instruction) →
    (∀ inner, Node.instruction inner ∈ Block.nodes (fun _ => []) block →
      ensuring.ensures (rewrite inner)
        (fun changed => Instruction.Alike renames inner.bare changed.bare)) →
    ensuring.ensures (Block.mapInstructions rewrite block) (Block.Alike renames block)
  | [], _ => ensuring.pure .nil
  | instruction :: rest, each => by
      rw [Block.mapInstructions]
      refine ensuring.bind (Instruction.mapInstructions_alike instruction fun inner listed =>
        each inner (by simp [Block.nodes, listed])) fun _ => ?_
      exact ensuring.bind (Block.mapInstructions_alike rest fun inner listed =>
        each inner (by simp [Block.nodes, listed]))
        fun _ => ensuring.pure fun second first => .cons first second

end

end Traversal
end StageLink
