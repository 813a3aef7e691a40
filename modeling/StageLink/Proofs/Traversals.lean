import StageLink.Proofs.Addresses
import StageLink.Proofs.Searches

/-!
# Traversals

There are four ways through an instruction list: the steered walk, and the rewriting of
instructions, places and blocks.  They reach the same parts.  A walk that is never steered off
presents every node once and outside first.  Rewriting that changes nothing comes upon the
instructions in the order of the walk, upon the places of the walk inside first, and upon every
block inside first: `Block.rewriting_follows_walk`.
-/

namespace StageLink

/-! ## Records -/

section Records

variable {Item Answer Result : Type}

/-- Write down an item. -/
def note (item : Item) : StateM (List Item) Unit := modify (· ++ [item])

/-- Write down an item and leave it as it is. -/
def noted (item : Item) : StateM (List Item) Item := do
  note item
  return item

/-- What a run answers and what it writes down. -/
def Records (run : StateM (List Item) Answer) (answer : Answer) (items : List Item) : Prop :=
  ∀ before, run.run before = (answer, before ++ items)

namespace Records

variable {run : StateM (List Item) Answer} {next : Answer → StateM (List Item) Result}
  {answer : Answer} {result : Result} {items more : List Item}

theorem pure (answer : Answer) : Records (pure answer : StateM (List Item) Answer) answer [] :=
  fun before => by
    rw [StateT.run_pure, List.append_nil]
    rfl

theorem note (item : Item) : Records (note item) () [item] := fun _ => rfl

theorem bind (records : Records run answer items)
    (then_records : Records (next answer) result more) :
    Records (run >>= next) result (items ++ more) := by
  intro before
  rw [StateT.run_bind, records before, ← List.append_assoc]
  exact then_records (before ++ items)

theorem noted (item : Item) : Records (noted item) item [item] :=
  (note item).bind (pure item)

theorem of_eq (records : Records run answer items) (same : more = items) :
    Records run answer more :=
  same ▸ records

theorem map (records : Records run answer items) (change : Answer → Result) :
    Records (change <$> run) (change answer) items := by
  rw [map_eq_pure_bind]
  exact .of_eq (records.bind (.pure (change answer))) (List.append_nil items).symm

end Records
end Records

/-! ## The walk -/

theorem records_anyM (nodes : List Node) :
    Records (nodes.anyM fun node => do note node; return false) false nodes := by
  induction nodes with
  | nil => exact .pure false
  | cons node nodes ih =>
      rw [List.anyM]
      have first : Records (do note node; return false) false [node] :=
        .bind (.note node) (.pure false)
      exact first.bind ih

/-- A walk that is never steered off presents the nodes in order. -/
theorem Block.records_walk (block : Block) :
    Records (Block.walk (fun node => do note node; return .descend) (fun _ => pure true) block) true
      block.ownNodes := by
  have visitor : (fun node : Node => do note node; return Visit.descend) =
      searching (fun node => do note node; return false) fun _ => false := by
    funext node
    simp [searching]
  have nothing : Quiet (fun node => do note node; return false : Node → StateM (List Node) Bool)
      (fun _ => false) fun _ => [] := fun _ passed => by cases passed
  rw [visitor, Block.walk_searching nothing (fun _ => by simp)]
  exact (records_anyM _).map not

/-! ## Rewriting instructions -/

def Node.instruction? : Node → Option Instruction
  | .instruction inside => some inside
  | _ => none

def Node.place? : Node → Option Place
  | .place inside => some inside
  | _ => none

/-- Operands hold no instructions. -/
theorem Instruction.filterMap_operandNodes (instruction : Instruction) :
    instruction.operandNodes.filterMap Node.instruction? = [] := by
  apply List.filterMap_eq_nil_iff.mpr
  intro node listed
  cases node with
  | instruction inside => exact absurd listed (instruction.operands_no_instruction inside)
  | expr expression => rfl
  | place place => rfl

theorem Expr.filterMap_nodes (expression : Expr) :
    expression.nodes.filterMap Node.instruction? = [] := by
  apply List.filterMap_eq_nil_iff.mpr
  intro node listed
  cases node with
  | instruction inside => exact absurd listed (expression.no_instruction inside)
  | expr expression => rfl
  | place place => rfl

mutual

theorem Instruction.records_mapInstructions : (instruction : Instruction) →
    Records (instruction.mapInstructions noted) instruction
      ((instruction.nodes fun _ => []).filterMap Node.instruction?)
  | .branch condition accept reject => by
      rw [Instruction.mapInstructions]
      refine .of_eq (.bind (.noted _) (.bind (Block.records_mapInstructions accept)
        (.bind (Block.records_mapInstructions reject) (.pure _)))) ?_
      simp [Instruction.nodes, Block.ownNodes, Node.instruction?, condition.filterMap_nodes]
  | .loop body => by
      rw [Instruction.mapInstructions]
      refine .of_eq (.bind (.noted _) (.bind (Block.records_mapInstructions body) (.pure _))) ?_
      simp [Instruction.nodes, Block.ownNodes, Node.instruction?]
  | .assign _ _ _ | .call _ _ _ | .yield _ => by
      rw [Instruction.nodes, List.filterMap_cons, Instruction.filterMap_operandNodes]
      exact .noted _
  | .declare _ | .function _ | .leave | .next | .discard | .emitVertex | .endPrimitive => .noted _

theorem Block.records_mapInstructions : (block : List Instruction) →
    Records (Block.mapInstructions noted block) block
      ((Block.ownNodes block).filterMap Node.instruction?)
  | [] => .pure []
  | instruction :: rest => by
      rw [Block.mapInstructions]
      refine .of_eq (.bind instruction.records_mapInstructions
        (.bind (Block.records_mapInstructions rest) (.pure _))) ?_
      simp [Block.ownNodes_cons]

end

/-! ## Rewriting inside first -/

section Rewrites

variable {Item Answer Result : Type}

def Rewrites (kind : TreePart → Option Item) (part : TreePart) (run : StateM (List Item) Answer)
    (answer : Answer) : Prop :=
  ∃ items, Tour InsideFirst (part.view kind) items ∧ Records run answer items

/-- A run comes upon what is of a kind in one part after the other, inside first, and at last upon
something else. -/
def RewritesAll (kind : TreePart → Option Item) (parts : List TreePart)
    (run : StateM (List Item) Answer) (answer : Answer) (last : List Item) :
    Prop :=
  ∃ lists, List.Forall₂ (fun part items => Tour InsideFirst (part.view kind) items) parts lists ∧
    Records run answer (lists.flatten ++ last)

variable {kind : TreePart → Option Item} {part : TreePart} {parts more : List TreePart}
  {run : StateM (List Item) Answer} {next : Answer → StateM (List Item) Result}
  {answer : Answer} {result : Result} {last : List Item}

namespace RewritesAll

theorem pure (answer : Answer) : RewritesAll kind [] (pure answer) answer [] :=
  ⟨[], .nil, .pure answer⟩

theorem noted (item : Item) : RewritesAll kind [] (noted item) item [item] :=
  ⟨[], .nil, .noted item⟩

theorem bind (first : Rewrites kind part run answer)
    (rest : RewritesAll kind parts (next answer) result last) :
    RewritesAll kind (part :: parts) (run >>= next) result last := by
  obtain ⟨items, tour, records⟩ := first
  obtain ⟨lists, tours, records_rest⟩ := rest
  refine ⟨items :: lists, .cons tour tours, .of_eq (records.bind records_rest) ?_⟩
  rw [List.flatten_cons, List.append_assoc]

theorem append (first : RewritesAll kind parts run answer [])
    (rest : RewritesAll kind more (next answer) result last) :
    RewritesAll kind (parts ++ more) (run >>= next) result last := by
  obtain ⟨lists, tours, records⟩ := first
  obtain ⟨lists_rest, tours_rest, records_rest⟩ := rest
  refine ⟨lists ++ lists_rest, List.rel_append tours tours_rest,
    .of_eq (records.bind records_rest) ?_⟩
  rw [List.flatten_append, List.append_nil, List.append_assoc]

theorem map (all : RewritesAll kind parts run answer last) (change : Answer → Result) :
    RewritesAll kind parts (change <$> run) (change answer) last := by
  obtain ⟨lists, tours, records⟩ := all
  exact ⟨lists, tours, records.map change⟩

theorem finish (all : RewritesAll kind parts run answer [])
    (records : Records (next answer) result last) :
    RewritesAll kind parts (run >>= next) result last := by
  obtain ⟨lists, tours, records_all⟩ := all
  refine ⟨lists, tours, .of_eq (records_all.bind records) ?_⟩
  rw [List.append_nil]

/-- Nothing needs to be done about a part without anything of the kind. -/
theorem idle (nothing : ∀ address, part.view kind address = none)
    (rest : RewritesAll kind parts run answer last) :
    RewritesAll kind (part :: parts) run answer last := by
  obtain ⟨lists, tours, records⟩ := rest
  exact ⟨[] :: lists, .cons (.nil nothing) tours, records⟩

end RewritesAll

namespace Rewrites

theorem of_inner (each : RewritesAll kind part.inner run answer (kind part).toList) :
    Rewrites kind part run answer := by
  obtain ⟨lists, tours, records⟩ := each
  exact ⟨_, tour_insideFirst tours rfl, records⟩

theorem map (rewrites : Rewrites kind part run answer) (change : Answer → Result) :
    Rewrites kind part (change <$> run) (change answer) := by
  obtain ⟨items, tour, records⟩ := rewrites
  exact ⟨items, tour, records.map change⟩

theorem idle (nothing : ∀ address, part.view kind address = none) (answer : Answer) :
    Rewrites kind part (pure answer) answer :=
  ⟨[], .nil nothing, .pure answer⟩

end Rewrites
end Rewrites

/-! ## Rewriting places -/

mutual

theorem Place.rewrites : (place : Place) →
    Rewrites TreePart.place? (.place place) (place.mapPlaces noted) place
  | .whole _ => .of_inner (.noted _)
  | .element array index _ => by
      rw [Place.mapPlaces]
      exact .of_inner (.bind array.rewrites (.bind index.rewrites (.noted _)))
  | .field record _ _ => by
      rw [Place.mapPlaces]
      exact .of_inner (.bind record.rewrites (.noted _))

theorem Expr.rewrites : (expression : Expr) →
    Rewrites TreePart.place? (.expr expression) (expression.mapPlaces noted) expression
  | .constant _ => .of_inner (.pure _)
  | .load place => by
      rw [Expr.mapPlaces]
      exact .of_inner (.bind place.rewrites (.pure _))
  | .unary _ operand _ => by
      rw [Expr.mapPlaces]
      exact .of_inner (.bind operand.rewrites (.pure _))
  | .binary _ left right _ => by
      rw [Expr.mapPlaces]
      exact .of_inner (.bind left.rewrites (.bind right.rewrites (.pure _)))
  | .swizzle value _ _ => by
      rw [Expr.mapPlaces]
      exact .of_inner (.bind value.rewrites (.pure _))
  | .compose ty components => by
      rw [Expr.mapPlaces]
      exact .of_inner ((Expr.rewritesAll components).map (Expr.compose ty))
  | .texture sampler coordinate _ => by
      rw [Expr.mapPlaces]
      exact .of_inner (.bind sampler.rewrites (.bind coordinate.rewrites (.pure _)))

theorem Expr.rewritesAll : (expressions : List Expr) →
    RewritesAll TreePart.place? (expressions.map TreePart.expr)
      (Expr.mapPlacesOfAll noted expressions)
      expressions []
  | [] => .pure []
  | expression :: expressions => by
      rw [Expr.mapPlacesOfAll]
      exact .bind expression.rewrites ((Expr.rewritesAll expressions).map (expression :: ·))

end

theorem Expr.rewrites_option (expression : Option Expr) :
    RewritesAll TreePart.place? (expression.toList.map TreePart.expr)
      (mapOption (Expr.mapPlaces noted) expression) expression [] := by
  cases expression with
  | none => exact .pure none
  | some expression => exact .bind expression.rewrites (.pure (some expression))

theorem Place.rewrites_option (place : Option Place) :
    RewritesAll TreePart.place? (place.toList.map TreePart.place)
      (mapOption (Place.mapPlaces noted) place) place [] := by
  cases place with
  | none => exact .pure none
  | some place => exact .bind place.rewrites (.pure (some place))

mutual

theorem Instruction.rewritesPlaces : (instruction : Instruction) →
    Rewrites TreePart.place? (.instruction instruction)
      (instruction.mapInstructions (Instruction.mapPlaces noted)) instruction
  | .assign target value guard => by
      rw [Instruction.mapInstructions, Instruction.mapPlaces]
      · exact .of_inner (.bind target.rewrites (.bind value.rewrites
          ((Expr.rewrites_option guard).map (Instruction.assign target value))))
      all_goals simp
  | .call callee arguments result => by
      rw [Instruction.mapInstructions, Instruction.mapPlaces]
      · exact .of_inner (.append (Expr.rewritesAll arguments)
          ((Place.rewrites_option result).map (Instruction.call callee arguments)))
      all_goals simp
  | .branch condition accept reject => by
      rw [Instruction.mapInstructions, Instruction.mapPlaces]
      have changed := condition.rewrites.map fun condition =>
        Instruction.branch condition accept reject
      exact .of_inner (.bind changed (.bind (.of_inner (Block.rewritesPlaces accept))
          (.bind (.of_inner (Block.rewritesPlaces reject)) (.pure _))))
  | .loop body => by
      rw [Instruction.mapInstructions, Instruction.mapPlaces, pure_bind]
      · exact .of_inner (.bind (.of_inner (Block.rewritesPlaces body)) (.pure _))
      all_goals simp
  | .yield value => by
      rw [Instruction.mapInstructions, Instruction.mapPlaces]
      · exact .of_inner ((Expr.rewrites_option value).map Instruction.yield)
      all_goals simp
  | .declare _ | .function _ | .leave | .next | .discard | .emitVertex | .endPrimitive =>
      .of_inner (.pure _)

theorem Block.rewritesPlaces : (block : List Instruction) →
    RewritesAll TreePart.place? (block.map TreePart.instruction)
      (Block.mapInstructions (Instruction.mapPlaces noted) block) block []
  | [] => .pure []
  | instruction :: rest => by
      rw [Block.mapInstructions]
      exact .bind instruction.rewritesPlaces ((Block.rewritesPlaces rest).map (instruction :: ·))

end

/-! ## Rewriting blocks -/

namespace TreePart

/-- There is no block at or below an operand, nor below an instruction that has operands only. -/
theorem view_block?_of_operands {part : TreePart} (no_block : part.block? = none)
    (operands : ∀ inside ∈ part.inner, inside.IsOperand) (address : Address) :
    part.view block? address = none := by
  cases address with
  | nil => exact no_block
  | cons position rest =>
      rw [view, Option.bind_eq_none_iff]
      intro inside there
      obtain ⟨next, listed, below⟩ := Option.bind_eq_some_iff.mp there
      have operand := isOperand_at? (operands next (List.mem_of_getElem? listed)) below
      cases inside with
      | block _ => exact operand.elim
      | _ => rfl

end TreePart

/-- A block is come upon after the blocks inside it. -/
theorem Block.rewrites_then {Result : Type} {parts : List TreePart} {block : Block}
    {next : Block → StateM (List Block) Result} {result : Result} {last : List Block}
    (inside : RewritesAll TreePart.block? (block.map TreePart.instruction)
      (Block.mapInnerBlocks noted block) block [])
    (rest : RewritesAll TreePart.block? parts (next block) result last) :
    RewritesAll TreePart.block? (.block block :: parts)
      (do let inner ← Block.mapInnerBlocks noted block
          let block ← noted inner
          next block) result last := by
  rw [← bind_assoc]
  exact .bind (.of_inner (.finish inside (.noted block))) rest

mutual

theorem Instruction.rewritesBlocks : (instruction : Instruction) →
    Rewrites TreePart.block? (.instruction instruction)
      (instruction.mapInnerBlocks noted) instruction
  | .branch condition accept reject => by
      rw [Instruction.mapInnerBlocks]
      have nothing : ∀ address, (TreePart.expr condition).view TreePart.block? address = none :=
        TreePart.view_block?_of_operands rfl (TreePart.isOperand_inner trivial)
      exact .of_inner (.idle nothing (Block.rewrites_then (Block.rewritesBlocks accept)
        (Block.rewrites_then (Block.rewritesBlocks reject) (.pure _))))
  | .loop body => by
      rw [Instruction.mapInnerBlocks]
      exact .of_inner (Block.rewrites_then (Block.rewritesBlocks body) (.pure _))
  | .assign _ _ _ | .call _ _ _ | .yield _ =>
      .idle (TreePart.view_block?_of_operands rfl (by grind [TreePart.inner, TreePart.IsOperand])) _
  | .declare _ | .function _ | .leave | .next | .discard | .emitVertex | .endPrimitive =>
      .of_inner (.pure _)

theorem Block.rewritesBlocks : (block : List Instruction) →
    RewritesAll TreePart.block? (block.map TreePart.instruction)
      (Block.mapInnerBlocks noted block) block []
  | [] => .pure []
  | instruction :: rest => by
      rw [Block.mapInnerBlocks]
      exact .bind instruction.rewritesBlocks ((Block.rewritesBlocks rest).map (instruction :: ·))

end

/-! ## All ways together -/

theorem TreePart.view_place? (part : TreePart) :
    (fun address => (part.view TreePart.node? address).bind Node.place?) =
    part.view TreePart.place? := by
  funext address
  rw [view, view, Option.bind_assoc]
  apply Option.bind_congr
  intro inside _
  cases inside <;> rfl

/-- A walk that is never steered off presents every node once, each before what it contains.
Rewriting that changes nothing comes upon the same instructions in the same order; upon the same
places, each once and after the places inside it; and upon the list itself and every list inside it,
each once and after the lists inside it. -/
theorem Block.rewriting_follows_walk (block : Block) : ∃ nodes places blocks,
    Records (Block.walk (fun node => do note node; return .descend) (fun _ => pure true) block) true
      nodes ∧
    Tour OutsideFirst ((TreePart.block block).view TreePart.node?) nodes ∧
    Records (Block.mapInstructions noted block) block (nodes.filterMap Node.instruction?) ∧
    Records (Block.mapPlaces noted block) block places ∧
    places.Perm (nodes.filterMap Node.place?) ∧
    Tour InsideFirst ((TreePart.block block).view TreePart.place?) places ∧
    Records (Block.mapBlocks noted block) block blocks ∧
    Tour InsideFirst ((TreePart.block block).view TreePart.block?) blocks := by
  obtain ⟨places, places_tour, places_recorded⟩ : Rewrites TreePart.place? (.block block)
      (Block.mapPlaces noted block) block := .of_inner (Block.rewritesPlaces block)
  obtain ⟨blocks, blocks_tour, blocks_recorded⟩ : Rewrites TreePart.block? (.block block)
      (Block.mapBlocks noted block) block :=
    .of_inner (.finish (Block.rewritesBlocks block) (.noted block))
  have presented := (Block.hasNodes block).filterMap Node.place?
  rw [TreePart.view_place?] at presented
  exact ⟨block.ownNodes, places, blocks, block.records_walk, block.hasNodes,
    Block.records_mapInstructions block, places_recorded,
    places_tour.perm partByPart_insideFirst partByPart_outsideFirst presented, places_tour,
    blocks_recorded, blocks_tour⟩

end StageLink
